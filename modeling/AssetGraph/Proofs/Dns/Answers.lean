import AssetGraph.Dns.Answers
import AssetGraph.Proofs.Rdap.Attributes
import AssetGraph.Proofs.Text.ByteOrder
import AssetGraph.Proofs.Text.Cut
import Mathlib.Data.List.Forall2
import Mathlib.Data.List.Induction
import Mathlib.Data.List.Perm.Basic
import Mathlib.Data.Prod.Lex
import Mathlib.Tactic.Common

/-!
# What answers say

The items of answers are the aliases, one for each owner that has any, and then the addresses, one for each owner that has any, both
in the order of the bytes of the owners. An alias is the last of its owner; the addresses of an owner are all that were answered,
as often as they were, in an order of their own. Nothing else about the order of the answers matters.
-/
namespace AssetGraph

namespace Dns

def withoutPoint (name : String) : String :=
  if name.toList.getLast? = some '.' then String.ofList name.toList.dropLast else name

def Record.owner (r : Record) : String := withoutPoint r.name

variable {r : Record} {rs rs' : List Record} {owner target : String} {item : Item} {items : List Item} {e x y : AddressEntry}
  {entries : List AddressEntry}

def aliasesOf (owner : String) (rs : List Record) : List Record := rs.filter fun r => r.type = .cname ∧ r.owner = owner

def addressesOf (owner : String) (rs : List Record) : List Record :=
  rs.filter fun r => (r.type = .a ∨ r.type = .aaaa) ∧ r.owner = owner

def aliasItem (owner target : String) (ttl : Nat) : Item where
  type := "dns"
  scope := "global"
  uniqueAttribute := "name"
  attributes := ⟨[("name", .string owner), ("target", .string target), ("ttl", .number (.integer ttl)), ("type", .string "CNAME")],
    Keyed.sorted_of_keys (show List.Pairwise (· < ·) ["name", "target", "ttl", "type"] by decide)⟩
  edges := [⟨⟨"rdap-domain", .search, owner, "global"⟩, .inbound⟩, ⟨⟨"dns", .search, target, "global"⟩, .inbound⟩]

def shownEntry (e : AddressEntry) : Json :=
  .object [("ip", .string e.ip), ("ttl", .number (.integer e.ttl)), ("type", .string e.type)]

/-- The item of an owner of addresses. -/
def hostItem (owner : String) (entries : List AddressEntry) : Item where
  type := "dns"
  scope := "global"
  uniqueAttribute := "name"
  attributes := ⟨[("name", .string owner), ("records", .array (entries.map shownEntry)), ("type", .string "address")],
    Keyed.sorted_of_keys (show List.Pairwise (· < ·) ["name", "records", "type"] by decide)⟩
  edges := (entries.map fun e => ⟨⟨"ip", .get, e.ip, "global"⟩, .both⟩) ++
    [⟨⟨"rdap-domain", .search, owner, "global"⟩, .inbound⟩]

/-- Whether an entry has the type, the address and the lifetime of a record. -/
inductive AddressEntry.IsOf : Record → AddressEntry → Prop
  | a (name : String) (ttl : Nat) (word : BitVec 32) :
    IsOf { name, ttl, data := .a word } { type := "A", ip := (Address.v4 word).render, ttl }
  | aaaa (name : String) (ttl : Nat) (word : BitVec 128) :
    IsOf { name, ttl, data := .aaaa word } { type := "AAAA", ip := (Address.v6 word).render, ttl }

/-- Whether an entry may stand before another: by the bytes of the type, then of the address, then by the lifetime. -/
def AddressEntry.Before (x y : AddressEntry) : Prop :=
  Text.utf8 x.type < Text.utf8 y.type ∨ x.type = y.type ∧
    (Text.utf8 x.ip < Text.utf8 y.ip ∨ x.ip = y.ip ∧ x.ttl ≤ y.ttl)

/-- Whether entries are those of the addresses of an owner, each as often as it was answered, in their order. -/
structure AreEntries (rs : List Record) (owner : String) (entries : List AddressEntry) : Prop where
  ordered : entries.Pairwise AddressEntry.Before
  answered : ∃ answered, List.Forall₂ AddressEntry.IsOf (addressesOf owner rs) answered ∧ entries.Perm answered

/-- Whether some names are the owners of the records of some types, in the order of their bytes. -/
structure AreOwners (types : List RecordType) (rs : List Record) (owners : List String) : Prop where
  ordered : owners.Pairwise fun a b => Text.utf8 a < Text.utf8 b
  mem_iff : ∀ owner, owner ∈ owners ↔ ∃ r ∈ rs, r.type ∈ types ∧ r.owner = owner

/-- Whether an item is that of the last alias of an owner. -/
def IsAliasItem (rs : List Record) (owner : String) (item : Item) : Prop :=
  ∃ r target, (aliasesOf owner rs).getLast? = some r ∧ r.data = .cname target ∧ item = aliasItem owner (withoutPoint target) r.ttl

/-- Whether an item is that of all addresses of an owner. -/
def IsHostItem (rs : List Record) (owner : String) (item : Item) : Prop :=
  ∃ entries, AreEntries rs owner entries ∧ item = hostItem owner entries

/-- Whether some items are those of some answers. -/
inductive AreItems (rs : List Record) : List Item → Prop
  | intro {aliasOwners hostOwners : List String} {aliases hosts : List Item} (haliasOwners : AreOwners [.cname] rs aliasOwners)
      (haliases : List.Forall₂ (IsAliasItem rs) aliasOwners aliases) (hhostOwners : AreOwners [.a, .aaaa] rs hostOwners)
      (hhosts : List.Forall₂ (IsHostItem rs) hostOwners hosts) : AreItems rs (aliases ++ hosts)

theorem trimName_eq (name : String) : trimName name = withoutPoint name := by
  rw [trimName, withoutPoint, Text.dropFinal_eq]
  split
  · rfl
  · exact String.ofList_toList

namespace AddressEntry

def rank (e : AddressEntry) : String ×ₗ String ×ₗ Nat := toLex (e.type, toLex (e.ip, e.ttl))

theorem before_iff : x.Before y ↔ x.rank ≤ y.rank := by
  rw [Before, Text.utf8_lt_iff, Text.utf8_lt_iff, rank, rank, Prod.Lex.toLex_le_toLex, Prod.Lex.toLex_le_toLex]

theorem le_iff : le x y = true ↔ x.Before y := by
  simp [le, Before, Text.utf8_lt_iff]

theorem before_antisymm (hxy : x.Before y) (hyx : y.Before x) : x = y := by
  have hrank : x.rank = y.rank := le_antisymm (before_iff.mp hxy) (before_iff.mp hyx)
  obtain ⟨type, ip, ttl⟩ := x
  obtain ⟨type', ip', ttl'⟩ := y
  cases hrank
  rfl

theorem isOf_iff : IsOf r e ↔ ofRecord? r = some e := by
  constructor
  · rintro (⟨name, ttl, word⟩ | ⟨name, ttl, word⟩) <;> rfl
  · intro h
    obtain ⟨name, ttl, data⟩ := r
    cases data with
    | a word =>
      cases h
      exact .a name ttl word
    | aaaa word =>
      cases h
      exact .aaaa name ttl word
    | cname _ | ptr _ => cases h

theorem rightUnique_isOf : Relator.RightUnique IsOf := by
  intro r x y hx hy
  rw [isOf_iff] at hx hy
  exact Option.some.inj (hx.symm.trans hy)

end AddressEntry

theorem pairwise_addressEntries (rs : List Record) : (addressEntries rs).Pairwise AddressEntry.Before := by
  have hsorted : (addressEntries rs).Pairwise fun x y => AddressEntry.le x y = true := by
    refine List.pairwise_mergeSort (fun x y z hxy hyz => ?_) (fun x y => ?_) _
    · rw [AddressEntry.le_iff, AddressEntry.before_iff] at *
      exact hxy.trans hyz
    · rw [Bool.or_eq_true, AddressEntry.le_iff, AddressEntry.le_iff, AddressEntry.before_iff, AddressEntry.before_iff]
      exact le_total _ _
  exact hsorted.imp AddressEntry.le_iff.mp

theorem perm_addressEntries (rs : List Record) : (addressEntries rs).Perm (rs.filterMap AddressEntry.ofRecord?) :=
  List.mergeSort_perm _ _

theorem aliasItem?_eq (h : r.data = .cname target) :
    aliasItem? owner r = some (aliasItem owner (withoutPoint target) r.ttl) := by
  have hattributes : Attributes.ofFields [("name", .string owner), ("type", .string "CNAME"), ("ttl", Json.ofNat r.ttl),
      ("target", .string (withoutPoint target))] = (aliasItem owner (withoutPoint target) r.ttl).attributes :=
    Attributes.ofFields_eq_of_perm ((List.reverse_perm _).symm.cons _) (by simp [Json.ofNat])
  rw [aliasItem?, h]
  dsimp only
  rw [trimName_eq, hattributes]
  rfl

theorem addressItem_eq (owner : String) (rs : List Record) : addressItem owner rs = hostItem owner (addressEntries rs) := by
  have hattributes : Attributes.ofFields [("name", .string owner), ("type", .string "address"),
      ("records", .array ((addressEntries rs).map AddressEntry.toJson))] = (hostItem owner (addressEntries rs)).attributes :=
    Attributes.ofFields_eq_of_perm ((List.reverse_perm _).symm.cons _) (by simp)
  rw [addressItem, hattributes]
  rfl

theorem mem_aliasesOf : r ∈ aliasesOf owner rs ↔ r ∈ rs ∧ r.type = .cname ∧ r.owner = owner := by
  simp [aliasesOf]

theorem mem_addressesOf : r ∈ addressesOf owner rs ↔ r ∈ rs ∧ (r.type = .a ∨ r.type = .aaaa) ∧ r.owner = owner := by
  simp [addressesOf]

theorem exists_target (h : r.type = .cname) : ∃ target, r.data = .cname target := by
  unfold Record.type at h
  split at h <;> cases h
  exact ⟨_, ‹_›⟩

theorem aliasesOf_concat (owner : String) (rs : List Record) (r : Record) :
    aliasesOf owner (rs ++ [r]) = aliasesOf owner rs ++ if r.type = .cname ∧ r.owner = owner then [r] else [] := by
  simp [aliasesOf, List.filter_append, List.filter_cons]

theorem addressesOf_concat (owner : String) (rs : List Record) (r : Record) :
    addressesOf owner (rs ++ [r]) =
      addressesOf owner rs ++ if (r.type = .a ∨ r.type = .aaaa) ∧ r.owner = owner then [r] else [] := by
  simp [addressesOf, List.filter_append, List.filter_cons]

theorem forall₂_filterMap {α β γ : Type} {f : α → Option β} {g : α → γ} {R : γ → β → Prop} {l : List α}
    (h : ∀ a ∈ l, ∃ b, f a = some b ∧ R (g a) b) : List.Forall₂ R (l.map g) (l.filterMap f) := by
  induction l with
  | nil => exact .nil
  | cons a l ih =>
    obtain ⟨b, hb, hR⟩ := h a List.mem_cons_self
    rw [List.map_cons, List.filterMap_cons_some hb]
    exact .cons hR (ih fun a ha => h a (List.mem_cons_of_mem _ ha))

theorem exists_entry (h : r.type = .a ∨ r.type = .aaaa) : ∃ e, AddressEntry.ofRecord? r = some e := by
  obtain ⟨name, ttl, data⟩ := r
  cases data with
  | a _ | aaaa _ => exact ⟨_, rfl⟩
  | cname _ | ptr _ => rcases h with h | h <;> cases h

theorem areEntries_addressEntries (rs : List Record) (owner : String) :
    AreEntries rs owner (addressEntries (addressesOf owner rs)) := by
  refine ⟨pairwise_addressEntries _, _, ?_, perm_addressEntries _⟩
  have hentries : ∀ r ∈ addressesOf owner rs, ∃ e, AddressEntry.ofRecord? r = some e ∧ AddressEntry.IsOf r e := by
    intro r hr
    obtain ⟨e, he⟩ := exists_entry (mem_addressesOf.mp hr).2.1
    exact ⟨e, he, AddressEntry.isOf_iff.mpr he⟩
  simpa only [List.map_id] using forall₂_filterMap (g := id) hentries

namespace AreEntries

theorem unique {entries' : List AddressEntry} (h : AreEntries rs owner entries) (h' : AreEntries rs owner entries') :
    entries = entries' := by
  obtain ⟨hordered, answered, hanswered, hperm⟩ := h
  obtain ⟨hordered', answered', hanswered', hperm'⟩ := h'
  have hsame := List.right_unique_forall₂' AddressEntry.rightUnique_isOf hanswered hanswered'
  subst hsame
  exact List.Perm.eq_of_pairwise (fun x y _ _ => AddressEntry.before_antisymm) hordered hordered' (hperm.trans hperm'.symm)

theorem congr (h : AreEntries rs owner entries) (haddresses : (addressesOf owner rs').Perm (addressesOf owner rs)) :
    AreEntries rs' owner entries := by
  obtain ⟨hordered, answered, hanswered, hperm⟩ := h
  obtain ⟨answered', hanswered', hperm'⟩ := List.perm_comp_forall₂ haddresses hanswered
  exact ⟨hordered, answered', hanswered', hperm.trans hperm'.symm⟩

end AreEntries

namespace Answers

theorem ofList_concat (rs : List Record) (r : Record) : ofList (rs ++ [r]) = (ofList rs).add r := by
  rw [ofList, List.foldl_append]
  rfl

theorem aliases_add (as : Answers) (r : Record) :
    (as.add r).aliases = if r.type = .cname then as.aliases.insert r.owner r else as.aliases := by
  cases hdata : r.data <;> simp [add, Record.type, Record.owner, trimName_eq, hdata]

theorem addresses_add (as : Answers) (r : Record) :
    (as.add r).addresses =
      if r.type = .a ∨ r.type = .aaaa then as.addresses.alter r.owner fun rs => rs.getD [] ++ [r] else as.addresses := by
  cases hdata : r.data <;> simp [add, Record.type, Record.owner, trimName_eq, hdata]

/-- Under an owner stands its last alias. -/
theorem get?_aliases (rs : List Record) (owner : String) :
    (ofList rs).aliases.get? owner = (aliasesOf owner rs).getLast? := by
  induction rs using List.reverseRecOn with
  | nil => rfl
  | append_singleton rs r ih =>
    rw [ofList_concat, aliasesOf_concat, aliases_add]
    by_cases htype : r.type = .cname
    · by_cases howner : r.owner = owner <;> simp [htype, howner, ih]
    · simp [htype, ih]

/-- Under an owner stand all its addresses. -/
theorem get?_addresses (rs : List Record) (owner : String) :
    (ofList rs).addresses.get? owner = if addressesOf owner rs = [] then none else some (addressesOf owner rs) := by
  induction rs using List.reverseRecOn with
  | nil => rfl
  | append_singleton rs r ih =>
    rw [ofList_concat, addressesOf_concat, addresses_add]
    by_cases htype : r.type = .a ∨ r.type = .aaaa
    · by_cases howner : r.owner = owner
      · subst howner
        have hsofar : ((ofList rs).addresses.get? r.owner).getD [] = addressesOf r.owner rs := by
          rw [ih]
          split
          · rename_i hnone
            exact hnone.symm
          · rfl
        simp [htype, Keyed.get?_alter, hsofar]
      · simp [htype, Keyed.get?_alter, howner, ih]
    · simp [htype, ih]

theorem mem_keys_aliases_iff : owner ∈ (ofList rs).aliases.keys ↔ aliasesOf owner rs ≠ [] := by
  rw [Keyed.mem_keys_iff, ← Option.ne_none_iff_exists', get?_aliases, Ne, List.getLast?_eq_none_iff]

theorem mem_keys_addresses_iff : owner ∈ (ofList rs).addresses.keys ↔ addressesOf owner rs ≠ [] := by
  rw [Keyed.mem_keys_iff, ← Option.ne_none_iff_exists', get?_addresses]
  simp

theorem forall₂_aliases (rs : List Record) :
    List.Forall₂ (IsAliasItem rs) (ofList rs).aliases.keys
      ((ofList rs).aliases.entries.filterMap fun (name, r) => aliasItem? name r) := by
  have hentries : ∀ e ∈ (ofList rs).aliases.entries, ∃ item, aliasItem? e.1 e.2 = some item ∧ IsAliasItem rs e.1 item := by
    rintro ⟨owner, r⟩ he
    have hlast := Keyed.mem_entries_iff.mp he
    rw [get?_aliases] at hlast
    obtain ⟨target, hdata⟩ := exists_target (mem_aliasesOf.mp (List.mem_of_getLast? hlast)).2.1
    exact ⟨_, aliasItem?_eq hdata, r, target, hlast, hdata, rfl⟩
  exact forall₂_filterMap hentries

theorem forall₂_addresses (rs : List Record) :
    List.Forall₂ (IsHostItem rs) (ofList rs).addresses.keys
      ((ofList rs).addresses.entries.map fun (name, rs) => addressItem name rs) := by
  rw [Keyed.keys, List.forall₂_map_left_iff, List.forall₂_map_right_iff, List.forall₂_same]
  rintro ⟨owner, mine⟩ he
  have hmine := Keyed.mem_entries_iff.mp he
  rw [get?_addresses] at hmine
  split at hmine
  · cases hmine
  · cases hmine
    exact ⟨_, areEntries_addressEntries rs owner, addressItem_eq _ _⟩

end Answers

theorem areOwners_iff {types : List RecordType} {owners : List String} {mine : String → List Record}
    (hmine : ∀ owner r, r ∈ mine owner ↔ r ∈ rs ∧ r.type ∈ types ∧ r.owner = owner) :
    AreOwners types rs owners ↔ owners.Pairwise (· < ·) ∧ ∀ owner, owner ∈ owners ↔ mine owner ≠ [] := by
  have hnonempty (owner : String) : mine owner ≠ [] ↔ ∃ r ∈ rs, r.type ∈ types ∧ r.owner = owner := by
    simp only [Ne, List.eq_nil_iff_forall_not_mem, not_forall, not_not, hmine]
  simp only [hnonempty]
  constructor
  · intro h
    exact ⟨h.ordered.imp Text.utf8_lt_iff.mp, h.mem_iff⟩
  · intro h
    exact ⟨h.1.imp Text.utf8_lt_iff.mpr, h.2⟩

theorem areOwners_aliases_iff {owners : List String} :
    AreOwners [.cname] rs owners ↔ owners.Pairwise (· < ·) ∧ ∀ owner, owner ∈ owners ↔ aliasesOf owner rs ≠ [] :=
  areOwners_iff fun owner r => by rw [mem_aliasesOf, List.mem_singleton]

theorem areOwners_hosts_iff {owners : List String} :
    AreOwners [.a, .aaaa] rs owners ↔ owners.Pairwise (· < ·) ∧ ∀ owner, owner ∈ owners ↔ addressesOf owner rs ≠ [] :=
  areOwners_iff fun owner r => by rw [mem_addressesOf, List.mem_pair]

theorem areItems_items (rs : List Record) : AreItems rs (Answers.ofList rs).items :=
  .intro (areOwners_aliases_iff.mpr ⟨Keyed.pairwise_keys _, fun _ => Answers.mem_keys_aliases_iff⟩) (Answers.forall₂_aliases rs)
    (areOwners_hosts_iff.mpr ⟨Keyed.pairwise_keys _, fun _ => Answers.mem_keys_addresses_iff⟩) (Answers.forall₂_addresses rs)

theorem AreOwners.unique {types : List RecordType} {owners owners' : List String} (h : AreOwners types rs owners)
    (h' : AreOwners types rs owners') : owners = owners' := by
  have hordered := h.ordered.imp Text.utf8_lt_iff.mp
  exact hordered.eq_of_mem_iff (h'.ordered.imp Text.utf8_lt_iff.mp) fun owner => (h.mem_iff owner).trans (h'.mem_iff owner).symm

theorem IsAliasItem.unique {item' : Item} (h : IsAliasItem rs owner item) (h' : IsAliasItem rs owner item') : item = item' := by
  obtain ⟨r, target, hlast, hdata, rfl⟩ := h
  obtain ⟨r', target', hlast', hdata', rfl⟩ := h'
  rw [hlast] at hlast'
  cases hlast'
  rw [hdata] at hdata'
  cases hdata'
  rfl

theorem IsHostItem.unique {item' : Item} (h : IsHostItem rs owner item) (h' : IsHostItem rs owner item') : item = item' := by
  obtain ⟨entries, hentries, rfl⟩ := h
  obtain ⟨entries', hentries', rfl⟩ := h'
  rw [hentries.unique hentries']

/-- Answers have no other items than these. -/
theorem AreItems.unique {items' : List Item} (h : AreItems rs items) (h' : AreItems rs items') : items = items' := by
  obtain ⟨haliasOwners, haliases, hhostOwners, hhosts⟩ := h
  obtain ⟨haliasOwners', haliases', hhostOwners', hhosts'⟩ := h'
  cases haliasOwners.unique haliasOwners'
  cases hhostOwners.unique hhostOwners'
  have heq := List.right_unique_forall₂' (R := IsAliasItem rs) (fun _ _ _ => IsAliasItem.unique) haliases haliases'
  have heq' := List.right_unique_forall₂' (R := IsHostItem rs) (fun _ _ _ => IsHostItem.unique) hhosts hhosts'
  rw [heq, heq']

/-- The items depend only on the last alias of each owner and on its addresses in any order. -/
theorem AreItems.congr (h : AreItems rs items) (haliases : ∀ owner, (aliasesOf owner rs').getLast? = (aliasesOf owner rs).getLast?)
    (haddresses : ∀ owner, (addressesOf owner rs').Perm (addressesOf owner rs)) : AreItems rs' items := by
  have hempty (owner : String) : aliasesOf owner rs' = [] ↔ aliasesOf owner rs = [] := by
    rw [← List.getLast?_eq_none_iff, haliases, List.getLast?_eq_none_iff]
  have hempty' (owner : String) : addressesOf owner rs' = [] ↔ addressesOf owner rs = [] := by
    rw [← List.length_eq_zero_iff, (haddresses owner).length_eq, List.length_eq_zero_iff]
  obtain ⟨haliasOwners, haliasItems, hhostOwners, hhostItems⟩ := h
  rw [areOwners_aliases_iff] at haliasOwners
  rw [areOwners_hosts_iff] at hhostOwners
  refine .intro (areOwners_aliases_iff.mpr ?_) (haliasItems.imp ?_) (areOwners_hosts_iff.mpr ?_) (hhostItems.imp ?_)
  · simpa only [Ne, hempty] using haliasOwners
  · rintro owner item ⟨r, target, hlast, hdata, hitem⟩
    exact ⟨r, target, (haliases owner).trans hlast, hdata, hitem⟩
  · simpa only [Ne, hempty'] using hhostOwners
  · rintro owner item ⟨entries, hentries, hitem⟩
    exact ⟨entries, hentries.congr (haddresses owner), hitem⟩

theorem AreOwners.eq_nil_iff {types : List RecordType} {owners : List String} (h : AreOwners types rs owners) :
    owners = [] ↔ ∀ r ∈ rs, r.type ∉ types := by
  rw [List.eq_nil_iff_forall_not_mem]
  constructor
  · exact fun hnone r hr htype => hnone r.owner ((h.mem_iff _).mpr ⟨r, hr, htype, rfl⟩)
  · intro hnone owner howner
    obtain ⟨r, hr, htype, -⟩ := (h.mem_iff owner).mp howner
    exact hnone r hr htype

/-- Answers that are pointers at most have no items, and no others have none. -/
theorem AreItems.eq_nil_iff (h : AreItems rs items) : items = [] ↔ ∀ r ∈ rs, r.type = .ptr := by
  obtain ⟨haliasOwners, haliases, hhostOwners, hhosts⟩ := h
  rw [List.append_eq_nil_iff, ← List.length_eq_zero_iff, ← haliases.length_eq, List.length_eq_zero_iff, haliasOwners.eq_nil_iff,
    ← List.length_eq_zero_iff, ← hhosts.length_eq, List.length_eq_zero_iff, hhostOwners.eq_nil_iff, ← forall₂_and]
  refine forall₂_congr fun r _ => ?_
  cases r.type <;> decide

/-- The items of answers are an alias for each owner that has one, in the order of the bytes of the owners, and then all addresses of
each owner that has any, in the same order, and no other items. Pointers add nothing. As long as the last alias of every owner stays
its last, the order of the answers does not matter. -/
theorem items_of_answers (rs : List Record) :
    (∀ items, AreItems rs items ↔ items = (Answers.ofList rs).items) ∧
      (Answers.ofList (rs.filter fun r => r.type ≠ .ptr)).items = (Answers.ofList rs).items ∧
      ∀ rs', rs.Perm rs' → (∀ owner, (aliasesOf owner rs').getLast? = (aliasesOf owner rs).getLast?) →
        (Answers.ofList rs').items = (Answers.ofList rs).items := by
  refine ⟨fun items => ⟨fun h => h.unique (areItems_items rs), fun h => h ▸ areItems_items rs⟩, ?_, fun rs' hperm hlast => ?_⟩
  · have haliases (owner : String) : aliasesOf owner (rs.filter fun r => r.type ≠ .ptr) = aliasesOf owner rs := by
      rw [aliasesOf, List.filter_filter]
      exact List.filter_congr fun r _ => by cases r.type <;> simp
    have haddresses (owner : String) : addressesOf owner (rs.filter fun r => r.type ≠ .ptr) = addressesOf owner rs := by
      rw [addressesOf, List.filter_filter]
      exact List.filter_congr fun r _ => by cases r.type <;> simp
    have hitems := (areItems_items rs).congr (fun owner => by rw [haliases]) (fun owner => by rw [haddresses])
    exact (areItems_items _).unique hitems
  · have hitems := (areItems_items rs).congr hlast fun owner => (hperm.filter _).symm
    exact (areItems_items rs').unique hitems

/-- Two answers of one address count twice, an alias gives way to a later one of its owner, and the items stay the same when the
records come in another order with the later alias still behind the earlier one. -/
theorem items_of_shuffled_answers :
    let old : Record := ⟨"www.example.", 5, .cname "old.example."⟩
    let new : Record := ⟨"www.example", 300, .cname "new.example."⟩
    let host (data : RecordData) : Record := ⟨"new.example.", 60, data⟩
    let pointer : Record := ⟨"1.2.0.192.in-addr.arpa.", 60, .ptr "new.example."⟩
    let rs := [old, host (.aaaa 0x20010db8000000000000000000000001), host (.a 0xc0000214), host (.a 0xc000020a), pointer, new,
      host (.a 0xc0000214)]
    let rs' := [pointer, host (.a 0xc000020a), host (.a 0xc0000214), old, host (.a 0xc0000214), new,
      host (.aaaa 0x20010db8000000000000000000000001)]
    let entries : List AddressEntry :=
      [⟨"A", "192.0.2.10", 60⟩, ⟨"A", "192.0.2.20", 60⟩, ⟨"A", "192.0.2.20", 60⟩, ⟨"AAAA", "2001:db8::1", 60⟩]
    let shown (type ip : String) : Json := .object [("ip", .string ip), ("ttl", .number (.integer 60)), ("type", .string type)]
    let items := [aliasItem "www.example" "new.example" 300, hostItem "new.example" entries]
    rs.Perm rs' ∧ (∀ owner, (aliasesOf owner rs').getLast? = (aliasesOf owner rs).getLast?) ∧ AreItems rs items ∧
      (Answers.ofList rs).items = items ∧ (Answers.ofList rs').items = items ∧
      ((Answers.ofList rs).items.map fun item => item.attributes.get? "records") = [none, some (.array
        [shown "A" "192.0.2.10", shown "A" "192.0.2.20", shown "A" "192.0.2.20", shown "AAAA" "2001:db8::1"])] := by
  intro old new host pointer rs rs' entries shown items
  have hold : old.owner = "www.example" := by decide +kernel
  have hnew : new.owner = "www.example" := by decide +kernel
  have hhost (data : RecordData) : (host data).owner = "new.example" :=
    show withoutPoint "new.example." = "new.example" by decide +kernel
  have hperm : rs.Perm rs' := by decide
  have hlast (owner : String) : (aliasesOf owner rs').getLast? = (aliasesOf owner rs).getLast? := by
    simp only [rs, rs', aliasesOf, List.filter_cons, List.filter_nil, hold, hnew]
    by_cases howner : "www.example" = owner <;> simp [howner, Record.type, old, new, host, pointer]
  have haliasOwners : AreOwners [.cname] rs ["www.example"] := by
    refine ⟨List.pairwise_singleton _ _, fun owner => ?_⟩
    simp [rs, hold, hnew, Record.type, old, new, host, pointer, eq_comm]
  have hhostOwners : AreOwners [.a, .aaaa] rs ["new.example"] := by
    refine ⟨List.pairwise_singleton _ _, fun owner => ?_⟩
    simp [rs, hhost, Record.type, old, new, host, pointer, eq_comm]
  have halias : IsAliasItem rs "www.example" (aliasItem "www.example" "new.example" 300) :=
    ⟨new, "new.example.", by decide +kernel, rfl, congrArg (aliasItem "www.example" · 300) (by decide +kernel)⟩
  have hentries : AreEntries rs "new.example" entries := by
    have haddresses : addressesOf "new.example" rs = [host (.aaaa 0x20010db8000000000000000000000001), host (.a 0xc0000214),
        host (.a 0xc000020a), host (.a 0xc0000214)] := by decide +kernel
    have h20 : AddressEntry.IsOf (host (.a 0xc0000214)) ⟨"A", "192.0.2.20", 60⟩ := AddressEntry.isOf_iff.mpr (by decide +kernel)
    have h10 : AddressEntry.IsOf (host (.a 0xc000020a)) ⟨"A", "192.0.2.10", 60⟩ := AddressEntry.isOf_iff.mpr (by decide +kernel)
    have h6 : AddressEntry.IsOf (host (.aaaa 0x20010db8000000000000000000000001)) ⟨"AAAA", "2001:db8::1", 60⟩ :=
      AddressEntry.isOf_iff.mpr (by decide +kernel)
    have hanswered : List.Forall₂ AddressEntry.IsOf (addressesOf "new.example" rs)
        [⟨"AAAA", "2001:db8::1", 60⟩, ⟨"A", "192.0.2.20", 60⟩, ⟨"A", "192.0.2.10", 60⟩, ⟨"A", "192.0.2.20", 60⟩] := by
      rw [haddresses]
      exact .cons h6 (.cons h20 (.cons h10 (.cons h20 .nil)))
    refine ⟨?_, _, hanswered, by decide⟩
    have hsorted : entries.Pairwise fun x y => AddressEntry.le x y = true := by decide +kernel
    exact hsorted.imp AddressEntry.le_iff.mp
  have hitems : AreItems rs items :=
    .intro haliasOwners (.cons halias .nil) hhostOwners (.cons ⟨entries, hentries, rfl⟩ .nil)
  obtain ⟨hgiven, -, hshuffled⟩ := items_of_answers rs
  have heq := (hgiven items).mp hitems
  exact ⟨hperm, hlast, hitems, heq.symm, (hshuffled rs' hperm hlast).trans heq.symm, heq ▸ rfl⟩

end Dns
end AssetGraph

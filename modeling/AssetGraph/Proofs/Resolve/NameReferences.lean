import AssetGraph.Proofs.Resolve.History
import AssetGraph.Proofs.Resolve.Names

/-!
# References to names

The items of one set of answers have the owners of its aliases and then the owners of its addresses for references, each once. So
an owner with both has two items of one reference. What a search for an address finds is put together from the answers for each name
that a pointer leads to, and an owner that stands in two of these sets has an item in each.
-/
namespace AssetGraph

namespace Dns

variable {rs rs' : List Record} {items : List Item} {owner : String}

def referenceOf (owner : String) : String := "dns/global/" ++ owner

/-- Whether no owner has both an alias and an address. -/
def AliasesApart (rs : List Record) : Prop :=
  ∀ r ∈ rs, ∀ r' ∈ rs, r.type = .cname → r'.type ∈ [.a, .aaaa] → r.owner ≠ r'.owner

/-- Whether two sets of answers have no owner in common. The owners of pointers do not count. -/
def OwnersApart (rs rs' : List Record) : Prop :=
  ∀ r ∈ rs, ∀ r' ∈ rs', r.type ≠ .ptr → r'.type ≠ .ptr → r.owner ≠ r'.owner

instance (rs : List Record) : Decidable (AliasesApart rs) :=
  inferInstanceAs (Decidable (∀ r ∈ rs, ∀ r' ∈ rs, r.type = .cname → r'.type ∈ [.a, .aaaa] → r.owner ≠ r'.owner))

instance (rs rs' : List Record) : Decidable (OwnersApart rs rs') :=
  inferInstanceAs (Decidable (∀ r ∈ rs, ∀ r' ∈ rs', r.type ≠ .ptr → r'.type ≠ .ptr → r.owner ≠ r'.owner))

theorem referenceOf_inj {owner' : String} : referenceOf owner = referenceOf owner' ↔ owner = owner' := by
  simp [referenceOf]

theorem AreOwners.nodup {types : List RecordType} {owners : List String} (h : AreOwners types rs owners) : owners.Nodup :=
  h.ordered.imp fun hlt => (Text.utf8_lt_iff.mp hlt).ne

theorem IsAliasItem.reference?_eq {item : Item} (h : IsAliasItem rs owner item) : item.reference? = some (referenceOf owner) := by
  obtain ⟨r, target, -, -, rfl⟩ := h
  rfl

theorem IsHostItem.reference?_eq {item : Item} (h : IsHostItem rs owner item) : item.reference? = some (referenceOf owner) := by
  obtain ⟨entries, -, rfl⟩ := h
  rfl

theorem map_reference?_of_forall₂ {R : String → Item → Prop} {owners : List String} (h : List.Forall₂ R owners items)
    (hR : ∀ owner item, R owner item → item.reference? = some (referenceOf owner)) :
    items.map Item.reference? = owners.map (some ∘ referenceOf) := by
  induction h with
  | nil => rfl
  | cons hitem _ ih => rw [List.map_cons, List.map_cons, ih, hR _ _ hitem, Function.comp]

/-- The references of the items of some answers are those of the owners of aliases and then those of the owners of addresses. -/
theorem AreItems.exists_owners (h : AreItems rs items) :
    ∃ aliasOwners hostOwners, AreOwners [.cname] rs aliasOwners ∧ AreOwners [.a, .aaaa] rs hostOwners ∧
      items.map Item.reference? = (aliasOwners ++ hostOwners).map (some ∘ referenceOf) := by
  obtain ⟨haliasOwners, haliases, hhostOwners, hhosts⟩ := h
  refine ⟨_, _, haliasOwners, hhostOwners, ?_⟩
  rw [List.map_append, List.map_append, map_reference?_of_forall₂ haliases fun _ _ => IsAliasItem.reference?_eq,
    map_reference?_of_forall₂ hhosts fun _ _ => IsHostItem.reference?_eq]

/-- The items of some answers have a reference each when no owner has both an alias and an address. -/
theorem AreItems.nodup_references_iff (h : AreItems rs items) : (items.map Item.reference?).Nodup ↔ AliasesApart rs := by
  obtain ⟨aliasOwners, hostOwners, haliases, hhosts, hreferences⟩ := h.exists_owners
  rw [hreferences, List.nodup_map_iff (Option.some_injective _ |>.comp fun _ _ => referenceOf_inj.mp), List.nodup_append,
    and_iff_right haliases.nodup, and_iff_right hhosts.nodup]
  constructor
  · intro hapart r hr r' hr' htype htype' howner
    exact hapart r.owner ((haliases.mem_iff _).mpr ⟨r, hr, List.mem_singleton.mpr htype, rfl⟩) r'.owner
      ((hhosts.mem_iff _).mpr ⟨r', hr', htype', rfl⟩) howner
  · intro hapart owner howner owner' howner' heq
    obtain ⟨r, hr, htype, rfl⟩ := (haliases.mem_iff _).mp howner
    obtain ⟨r', hr', htype', rfl⟩ := (hhosts.mem_iff _).mp howner'
    exact hapart r hr r' hr' (List.mem_singleton.mp htype) htype' heq

theorem AreItems.mem_references_iff (h : AreItems rs items) {reference : Option String} :
    reference ∈ items.map Item.reference? ↔ ∃ r ∈ rs, r.type ≠ .ptr ∧ some (referenceOf r.owner) = reference := by
  obtain ⟨aliasOwners, hostOwners, haliases, hhosts, hreferences⟩ := h.exists_owners
  have hkinds (type : RecordType) : type ≠ .ptr ↔ type ∈ [.cname] ∨ type ∈ [.a, .aaaa] := by
    cases type <;> decide
  have howners (owner : String) : owner ∈ aliasOwners ++ hostOwners ↔ ∃ r ∈ rs, r.type ≠ .ptr ∧ r.owner = owner := by
    rw [List.mem_append, haliases.mem_iff, hhosts.mem_iff, ← exists_or]
    simp only [hkinds, ← and_or_left, ← or_and_right]
  rw [hreferences, List.mem_map]
  constructor
  · rintro ⟨owner, howner, rfl⟩
    obtain ⟨r, hr, htype, rfl⟩ := (howners owner).mp howner
    exact ⟨r, hr, htype, rfl⟩
  · rintro ⟨r, hr, htype, rfl⟩
    exact ⟨r.owner, (howners _).mpr ⟨r, hr, htype, rfl⟩, rfl⟩

theorem disjoint_references_iff {items' : List Item} (h : AreItems rs items) (h' : AreItems rs' items') :
    List.Disjoint (items.map Item.reference?) (items'.map Item.reference?) ↔ OwnersApart rs rs' := by
  constructor
  · intro hdisjoint r hr r' hr' htype htype' howner
    exact hdisjoint (h.mem_references_iff.mpr ⟨r, hr, htype, rfl⟩)
      (h'.mem_references_iff.mpr ⟨r', hr', htype', by rw [howner]⟩)
  · intro hapart reference hmem hmem'
    obtain ⟨r, hr, htype, hreference⟩ := h.mem_references_iff.mp hmem
    obtain ⟨r', hr', htype', hreference'⟩ := h'.mem_references_iff.mp hmem'
    exact hapart r hr r' hr' htype htype' (referenceOf_inj.mp (Option.some.inj (hreference.trans hreference'.symm)))

/-- What several sets of answers come to together has a reference for each item when no owner has both an alias and an address in
one set, and no owner stands in two sets. -/
theorem nodup_references_flatMap_iff (batches : List (List Record)) :
    ((batches.flatMap fun rs => (Answers.ofList rs).items).map Item.reference?).Nodup ↔
      (∀ rs ∈ batches, AliasesApart rs) ∧ batches.Pairwise OwnersApart := by
  rw [List.map_flatMap, List.nodup_flatMap]
  refine and_congr (forall₂_congr fun rs _ => (areItems_items rs).nodup_references_iff) ?_
  exact List.Pairwise.iff fun rs rs' => disjoint_references_iff (areItems_items rs) (areItems_items rs')

end Dns

namespace Resolve

variable {c : Config} {world : World} {s s' : State} {name text : String} {items : List Item}
  {ignoreCache : Bool}

namespace Names

open Dns (Answers Question Record)

/-- The records that answer a question after some requests, when they do. -/
def recordsAt? (world : World) (sent : List Request) (q : Question) : Option (List Record) :=
  match world sent (.dns q) with
  | some (.ok records) => some records
  | _ => none

def answersAt? (world : World) (sent : List Request) (name : String) : Option (List Record) := do
  let v4 ← recordsAt? world sent ⟨Dns.qualified name, .a⟩
  let v6 ← recordsAt? world (sent ++ [.dns ⟨Dns.qualified name, .a⟩]) ⟨Dns.qualified name, .aaaa⟩
  return v4 ++ v6

def batchesFrom? (world : World) (sent : List Request) : List String → Option (List (List Record))
  | [] => some []
  | name :: names => do
    let records ← answersAt? world sent name
    let more ← batchesFrom? world (sent ++ questions name) names
    return records :: more

def batches? (world : World) (sent : List Request) (text : String) : Option (List (List Record)) :=
  match Address.parse? text with
  | some a => do
    let pointers ← recordsAt? world sent ⟨a.reverseName, .ptr⟩
    batchesFrom? world (sent ++ [.dns ⟨a.reverseName, .ptr⟩]) (pointers.filterMap target?)
  | none => batchesFrom? world sent [text]

def itemsOf (batches : List (List Record)) : List Item := batches.flatMap fun rs => (Answers.ofList rs).items

theorem exists_of_run_ask {α : Type} {type : Dns.RecordType} {f : List Record → Resolution α} {a : α}
    (h : (askNameServer name type >>= f).run.run world s = (some (.ok a), s')) :
    ∃ records, recordsAt? world s.requests ⟨name, type⟩ = some records ∧
      (f records).run.run world (s.sending [.dns ⟨name, type⟩]) = (some (.ok a), s') := by
  rw [recordsAt?]
  rcases hanswer : world s.requests (.dns ⟨name, type⟩) with _ | e | records
  · rw [Resolution.run_bind, askNameServer_eq, Plan.bind, Plan.run, hanswer] at h
    cases h
  · rw [run_ask_of_error hanswer] at h
    cases h
  · rw [run_ask_of_ok hanswer] at h
    exact ⟨records, rfl, h⟩

theorem exists_of_run_forward (h : (forward name).run.run world s = (some (.ok items), s')) :
    ∃ records, answersAt? world s.requests name = some records ∧ items = (Answers.ofList records).items ∧
      s' = s.sending (questions name) := by
  rw [forward_eq] at h
  obtain ⟨v4, hv4, h⟩ := exists_of_run_ask h
  obtain ⟨v6, hv6, h⟩ := exists_of_run_ask h
  obtain ⟨hresult, rfl⟩ : some (resultOf name (v4 ++ v6)) = some (.ok items) ∧ _ = s' := Prod.mk.inj h
  rw [resultOf] at hresult
  split at hresult
  · cases hresult
  · cases hresult
    have hanswers : answersAt? world s.requests name = some (v4 ++ v6) :=
      Option.bind_eq_some_iff.mpr ⟨v4, hv4, Option.bind_eq_some_iff.mpr ⟨v6, hv6, rfl⟩⟩
    exact ⟨v4 ++ v6, hanswers, rfl, (s.sending_append _ _).symm⟩

/-- Pointers whose items are found lead to names that all have answers, and the items are theirs, name by name. -/
theorem exists_of_run_forwardAll {records : List Record} (h : (forwardAll records).run.run world s = (some (.ok items), s')) :
    ∃ batches, batchesFrom? world s.requests (records.filterMap target?) = some batches ∧ items = itemsOf batches := by
  induction records generalizing s s' items with
  | nil =>
    cases h
    exact ⟨[], rfl, rfl⟩
  | cons r rest ih =>
    cases htarget : target? r with
    | none =>
      rw [forwardAll_cons_of_none htarget] at h
      rw [List.filterMap_cons_none htarget]
      exact ih h
    | some name =>
      rw [forwardAll_cons_of_some htarget] at h
      obtain ⟨first, s₁, hforward, h⟩ := Resolution.exists_of_run_bind h
      obtain ⟨others, s₂, hrest, hitems⟩ := Resolution.exists_of_run_bind h
      obtain ⟨records, hrecords, rfl, rfl⟩ := exists_of_run_forward hforward
      obtain ⟨batches, hbatches, rfl⟩ := ih hrest
      cases hitems
      rw [List.filterMap_cons_some htarget]
      exact ⟨records :: batches,
        Option.bind_eq_some_iff.mpr ⟨records, hrecords, Option.bind_eq_some_iff.mpr ⟨batches, hbatches, rfl⟩⟩, rfl⟩

theorem exists_of_run_resolution (h : (resolution text).run.run world s = (some (.ok items), s')) :
    ∃ batches, batches? world s.requests text = some batches ∧ items = itemsOf batches := by
  unfold resolution at h
  unfold batches?
  cases haddress : Address.parse? text with
  | some a =>
    rw [haddress] at h
    obtain ⟨pointers, hpointers, hrest⟩ := exists_of_run_ask h
    obtain ⟨batches, hbatches, hitems⟩ := exists_of_run_forwardAll hrest
    exact ⟨batches, Option.bind_eq_some_iff.mpr ⟨pointers, hpointers, hbatches⟩, hitems⟩
  | none =>
    rw [haddress] at h
    obtain ⟨records, hrecords, rfl, -⟩ := exists_of_run_forward h
    exact ⟨[records], Option.bind_eq_some_iff.mpr ⟨records, hrecords, rfl⟩, (List.append_nil _).symm⟩

/-- What a search finds are the items of the answers for its names, as they are now or were after some of the requests so far. -/
theorem exists_of_search (h : Reachable c world s) (hreverse : Address.parse? text = none ∨ c.reverseLookup = true)
    (hrun : ((execute c ⟨"dns", .search, text, "global"⟩ ignoreCache).run world s).1 = some (.ok items)) :
    ∃ sent batches, sent <+: s.requests ∧ batches? world sent text = some batches ∧ items = itemsOf batches := by
  obtain ⟨result, s', hearlier, hresult, hitems⟩ := h.exists_resolved (ItemType.ofName?_name .dns) (service_eq hreverse) hrun
  cases result with
  | error cause => cases hitems
  | ok found =>
    cases hitems
    obtain ⟨batches, hbatches, hfound⟩ := exists_of_run_resolution (Prod.ext hresult rfl)
    exact ⟨s'.requests, batches, hearlier, hbatches, hfound⟩

/-- In every history, the items that a search finds are those of the answers for each of its names, one name after the other: the
name itself, or the names that the pointers of its address lead to. The items refer to different names exactly when no owner has both
an alias and an address among the answers for one name, and no owner stands in the answers for two of the names. -/
theorem references_distinct_iff (h : Reachable c world s) (hreverse : Address.parse? text = none ∨ c.reverseLookup = true)
    (hrun : ((execute c ⟨"dns", .search, text, "global"⟩ ignoreCache).run world s).1 = some (.ok items)) :
    ∃ sent batches, sent <+: s.requests ∧ batches? world sent text = some batches ∧ items = itemsOf batches ∧
      ((items.map Item.reference?).Nodup ↔
        (∀ rs ∈ batches, Dns.AliasesApart rs) ∧ batches.Pairwise Dns.OwnersApart) := by
  obtain ⟨sent, batches, hearlier, hbatches, rfl⟩ := exists_of_search h hreverse hrun
  exact ⟨sent, batches, hearlier, hbatches, rfl, Dns.nodup_references_flatMap_iff batches⟩

/-- An address that points to an alias and to a host is found by three different names. -/
theorem references_distinct_of_two_pointers :
    let c : Config := { reverseLookup := true }
    let zone : Zone := fun q =>
      if q = ⟨"2.2.0.192.in-addr.arpa.", .ptr⟩ then [⟨q.name, 60, .ptr "a.example."⟩, ⟨q.name, 60, .ptr "b.example."⟩]
      else if q = ⟨"a.example.", .a⟩ then [⟨q.name, 60, .cname "c.example."⟩, ⟨"c.example.", 60, .a 0xc0000202⟩]
      else if q = ⟨"b.example.", .aaaa⟩ then [⟨q.name, 60, .aaaa 1⟩]
      else []
    let world : World := fun _ r =>
      match r with
      | .dns q => some (.ok (zone q))
      | _ => none
    let search := (execute c ⟨"dns", .search, "192.0.2.2", "global"⟩ false).run world {}
    ∃ items, search.1 = some (.ok items) ∧ (items.map Item.reference?).Nodup ∧
      items.map Item.reference? = [some "dns/global/a.example", some "dns/global/c.example", some "dns/global/b.example"] := by
  intro c zone world search
  have hfound : search.1.map (Except.map (List.map Item.reference?)) =
      some (.ok [some "dns/global/a.example", some "dns/global/c.example", some "dns/global/b.example"]) := by
    decide +kernel
  obtain ⟨items, hitems, hreferences⟩ := exists_items hfound
  obtain ⟨sent, batches, hsent, hbatches, -, hdistinct⟩ := references_distinct_iff (.fresh 0) (.inr rfl) hitems
  cases List.prefix_nil.mp hsent
  have hanswers : batches? world [] "192.0.2.2" = some [answersFor zone "a.example.", answersFor zone "b.example."] := by
    decide +kernel
  cases hanswers.symm.trans hbatches
  exact ⟨items, hitems, hdistinct.mpr (by decide +kernel), hreferences⟩

/-- An address that points to two aliases of one host is found by the host twice, and a name with an alias and an address is found
twice. -/
theorem references_repeated :
    let c : Config := { reverseLookup := true }
    let zone : Zone := fun q =>
      if q = ⟨"2.2.0.192.in-addr.arpa.", .ptr⟩ then [⟨q.name, 60, .ptr "a.example."⟩, ⟨q.name, 60, .ptr "b.example."⟩]
      else if q = ⟨"a.example.", .a⟩ ∨ q = ⟨"b.example.", .a⟩ then
        [⟨q.name, 60, .cname "c.example."⟩, ⟨"c.example.", 60, .a 0xc0000202⟩]
      else if q = ⟨"odd.example.", .a⟩ then [⟨q.name, 60, .cname "c.example."⟩]
      else if q = ⟨"odd.example.", .aaaa⟩ then [⟨q.name, 60, .aaaa 1⟩]
      else []
    let world : World := fun _ r =>
      match r with
      | .dns q => some (.ok (zone q))
      | _ => none
    let search (text : String) := ((execute c ⟨"dns", .search, text, "global"⟩ false).run world {}).1
    let repeated := [some "dns/global/a.example", some "dns/global/c.example", some "dns/global/b.example",
      some "dns/global/c.example"]
    let double := [some "dns/global/odd.example", some "dns/global/odd.example"]
    (∃ items, search "192.0.2.2" = some (.ok items) ∧ items.map Item.reference? = repeated) ∧
      (∃ items, search "odd.example" = some (.ok items) ∧ items.map Item.reference? = double) ∧
      ¬repeated.Nodup ∧ ¬double.Nodup := by
  intro c zone world search repeated double
  have hrepeated : (search "192.0.2.2").map (Except.map (List.map Item.reference?)) = some (.ok repeated) := by decide +kernel
  have hdouble : (search "odd.example").map (Except.map (List.map Item.reference?)) = some (.ok double) := by decide +kernel
  exact ⟨exists_items hrepeated, exists_items hdouble, by decide, by decide⟩

end Names
end Resolve
end AssetGraph

import AssetGraph.Proofs.Http.Target
import AssetGraph.Proofs.Resolve.Causality

/-!
# What edges ask for

The edges of networks, nameservers, entities and pages always ask for something: what has no text is left out. The
edges of autonomous systems, of names, of addresses and of domains ask for whatever text the source gave, so that an
edge that asks for nothing is found exactly where a source gave an empty one.
-/
namespace AssetGraph

namespace Text

variable {s t : String}

theorem append_ne_empty_of_left (t : String) (h : s ≠ "") : s ++ t ≠ "" :=
  fun hempty => h (String.append_eq_empty_iff.mp hempty).1

theorem append_ne_empty_of_right (s : String) (h : t ≠ "") : s ++ t ≠ "" :=
  fun hempty => h (String.append_eq_empty_iff.mp hempty).2

theorem asciiLower_eq_empty : asciiLower s = "" ↔ s = "" := by
  rw [asciiLower, String.ofList_eq_empty_iff, List.map_eq_nil_iff, String.toList_eq_nil_iff]

theorem lowercase_eq_empty : lowercase s = "" ↔ s = "" := by
  rw [lowercase, String.ofList_eq_empty_iff, ← String.toList_eq_nil_iff]
  cases s.toList with
  | nil => exact iff_of_true rfl rfl
  | cons c rest =>
    refine iff_of_false (fun h => ?_) (List.cons_ne_nil _ _)
    rw [lowercaseAfter, List.append_eq_nil_iff] at h
    have hletter := h.1
    split at hletter
    · cases hletter
    · split at hletter <;> cases hletter

theorem join_ne_empty {sep : String} (hsep : sep ≠ "") (part next : String) (rest : List String) :
    join sep (part :: next :: rest) ≠ "" := by
  rw [join]
  · exact append_ne_empty_of_left _ (append_ne_empty_of_right _ hsep)
  · exact List.cons_ne_nil next rest

end Text

namespace Address

theorem renderV4_ne_empty (word : BitVec 32) : renderV4 word ≠ "" := Text.join_ne_empty (by decide) _ _ _

theorem renderV6_ne_empty (word : BitVec 128) : renderV6 word ≠ "" := by
  unfold renderV6
  split
  · exact Text.append_ne_empty_of_left _ (by decide)
  · dsimp only
    split
    · exact Text.append_ne_empty_of_left _ (Text.append_ne_empty_of_right _ (by decide))
    · exact Text.join_ne_empty (by decide) _ _ _

theorem render_ne_empty (a : Address) : a.render ≠ "" := by
  cases a with
  | v4 word => exact renderV4_ne_empty word
  | v6 word => exact renderV6_ne_empty word

end Address

theorem Rdap.Url.join_ne_empty (u : Url) (kind : Kind) (query : String) : u.join kind query ≠ "" :=
  Text.append_ne_empty_of_left _ (Text.append_ne_empty_of_right _ (by decide))

namespace Http.Target

variable {s location next : String} {t : Target}

theorem host_ne_empty (h : parse? s = some t) : t.host ≠ "" := by
  obtain ⟨_, _, host, -, -, -, hne, rfl⟩ := parse?_eq_some_iff.mp h
  rwa [Ne, Text.asciiLower_eq_empty, String.ofList_eq_empty_iff]

theorem resolve?_ne_empty (h : t.resolve? location = some next) (hlocation : location ≠ "") : next ≠ "" := by
  unfold resolve? at h
  split at h
  · cases h
    exact hlocation
  · split at h
    · cases h
      exact Text.append_ne_empty_of_right _ hlocation
    · cases h
      exact Text.append_ne_empty_of_right _ hlocation
    · cases h

end Http.Target

def HasEmptyText (es : List Edge) : Prop := ∃ e ∈ es, e.query.text = ""

theorem hasEmptyText_append {es fs : List Edge} : HasEmptyText (es ++ fs) ↔ HasEmptyText es ∨ HasEmptyText fs := by
  simp only [HasEmptyText, List.mem_append, or_and_right, exists_or]

theorem hasEmptyText_singleton {e : Edge} : HasEmptyText [e] ↔ e.query.text = "" := by
  simp only [HasEmptyText, List.mem_singleton, exists_eq_left]

namespace Rdap

theorem hasEmptyText_entityEdges (entities : List Entity) : ¬HasEmptyText (entityEdges entities) := by
  rintro ⟨e, he, hempty⟩
  obtain ⟨href, hhref, rfl⟩ := List.mem_map.mp he
  obtain ⟨entity, -, hself⟩ := List.mem_filterMap.mp hhref
  have hsays := (Option.filter_eq_some_iff.mp hself).2
  exact of_decide_eq_true hsays hempty

theorem hasEmptyText_nameserverEdges (nameservers : List Nameserver) (fetched : List String) :
    ¬HasEmptyText (nameserverEdges nameservers fetched) := by
  rintro ⟨e, he, hempty⟩
  unfold nameserverEdges at he
  split at he
  · cases he
  · obtain ⟨n, -, rfl⟩ := List.mem_map.mp he
    exact Url.join_ne_empty _ _ _ hempty

theorem hasEmptyText_networkEdge (n : Option IpNetwork) : ¬HasEmptyText (networkEdge n) := by
  rintro ⟨e, he, hempty⟩
  unfold networkEdge at he
  split at he
  · cases he
  · split at he
    · cases he
    · rename_i hstart
      rw [List.mem_singleton.mp he] at hempty
      exact hstart hempty

theorem hasEmptyText_autnumEdges {autnums : List Autnum} {scope : String} :
    HasEmptyText (autnumEdges autnums scope) ↔ ∃ a ∈ autnums, a.handle = some "" := by
  simp only [HasEmptyText, autnumEdges, List.mem_map, List.mem_filterMap, exists_exists_and_eq_and, Edge.getting]
  constructor
  · rintro ⟨handle, ⟨a, ha, hhandle⟩, rfl⟩
    exact ⟨a, ha, hhandle⟩
  · rintro ⟨a, ha, hhandle⟩
    exact ⟨"", ⟨a, ha, hhandle⟩, rfl⟩

theorem hasEmptyText_addressEdges {hosts : Option HostAddresses} :
    HasEmptyText (addressEdges hosts) ↔ ∃ hs, hosts = some hs ∧ "" ∈ hs.all := by
  cases hosts with
  | none => simp [HasEmptyText, addressEdges]
  | some hs => simp [HasEmptyText, addressEdges, Edge.getting]

/-- Whether an object leaves a text empty that its item asks for. -/
def Object.LacksText : Object → Prop
  | entity e => ∃ a ∈ e.autnums, a.handle = some ""
  | nameserver n => n.ldhName = "" ∨ ∃ hs, n.addresses = some hs ∧ "" ∈ hs.all
  | _ => False

theorem Object.hasEmptyText_edges (o : Object) (scope : String) (fetched : List String) :
    HasEmptyText (o.edges scope fetched) ↔ o.LacksText := by
  cases o with
  | ipNetwork n => exact iff_of_false (hasEmptyText_entityEdges _) id
  | autnum a => exact iff_of_false (hasEmptyText_entityEdges _) id
  | domain d =>
    refine iff_of_false (fun h => ?_) id
    rcases hasEmptyText_append.mp h with h | h
    · exact (hasEmptyText_append.mp h).elim (hasEmptyText_nameserverEdges _ _) (hasEmptyText_entityEdges _)
    · exact hasEmptyText_networkEdge _ h
  | entity e =>
    simp only [edges, Entity.edges, hasEmptyText_append, hasEmptyText_entityEdges, hasEmptyText_autnumEdges, LacksText,
      false_or]
  | nameserver n =>
    simp only [edges, Nameserver.edges, hasEmptyText_append, hasEmptyText_entityEdges, hasEmptyText_singleton,
      hasEmptyText_addressEdges, dnsNameEdge, Edge.searching, Text.lowercase_eq_empty, LacksText, false_or]

end Rdap

namespace Dns

theorem hasEmptyText_aliasItem? {owner target : String} {record : Record} {item : Item}
    (hdata : record.data = .cname target) (h : aliasItem? owner record = some item) :
    HasEmptyText item.edges ↔ owner = "" ∨ trimName target = "" := by
  obtain ⟨other, hother, -, -, hedges⟩ := Resolve.of_aliasItem? h
  rw [hdata] at hother
  cases hother
  rw [hedges, ← List.singleton_append, hasEmptyText_append, hasEmptyText_singleton, hasEmptyText_singleton]
  rfl

theorem ip_ne_empty_of_mem {records : List Record} {entry : AddressEntry} (h : entry ∈ addressEntries records) :
    entry.ip ≠ "" := by
  obtain ⟨record, -, hentry⟩ := List.mem_filterMap.mp (List.mem_mergeSort.mp h)
  obtain ⟨a, -, rfl⟩ := Option.map_eq_some_iff.mp hentry
  exact a.render_ne_empty

theorem hasEmptyText_addressItem (owner : String) (records : List Record) :
    HasEmptyText (addressItem owner records).edges ↔ owner = "" := by
  have haddresses :
      ¬HasEmptyText ((addressEntries records).map fun entry => .getting .ip entry.ip globalScope .both) := by
    rintro ⟨e, he, hempty⟩
    obtain ⟨entry, hentry, rfl⟩ := List.mem_map.mp he
    exact ip_ne_empty_of_mem hentry hempty
  rw [addressItem, hasEmptyText_append, hasEmptyText_singleton]
  exact or_iff_right haddresses

end Dns

theorem Http.hasEmptyText_responseItem {text : String} {t : Target} (ht : Target.parse? text = some t)
    (scope url : String) (r : Response) : ¬HasEmptyText (responseItem scope url t r).edges := by
  change ¬HasEmptyText ([t.hostEdge scope] ++ redirectEdge t scope r)
  rw [hasEmptyText_append, hasEmptyText_singleton, not_or]
  constructor
  · unfold Target.hostEdge
    split
    · exact Address.render_ne_empty _
    · exact Target.host_ne_empty ht
  · rintro ⟨e, he, hempty⟩
    unfold redirectEdge at he
    split at he
    · obtain ⟨next, hnext, rfl⟩ := Option.map_eq_some_iff.mp (Option.mem_toList.mp he)
      obtain ⟨location, hlocation, hresolve⟩ := Option.bind_eq_some_iff.mp hnext
      have hsays := (Option.filter_eq_some_iff.mp hlocation).2
      exact Target.resolve?_ne_empty hresolve (of_decide_eq_true hsays) hempty
    · cases he

/-- The relations of which an edge may ask for nothing. -/
def Relation.unguarded : List Relation :=
  [⟨.asn, .get, .outbound⟩, ⟨.dns, .search, .both⟩, ⟨.ip, .get, .both⟩, ⟨.domain, .search, .inbound⟩,
    ⟨.dns, .search, .inbound⟩]

namespace Resolve

variable {c : Config} {world : World} {q : Query} {s : State} {item : Item} {items : List Item} {ignoreCache : Bool}
  {f : Finding}

def Finding.LacksText : Finding → Prop
  | object o _ => o.LacksText
  | aliasOf owner record => owner = "" ∨ ∃ target, record.data = .cname target ∧ Dns.trimName target = ""
  | hosts owner _ => owner = ""
  | page _ _ => False
  | address _ => False

theorem hasEmptyText_of_item? (h : f.item? globalScope = some item) : HasEmptyText item.edges ↔ f.LacksText := by
  cases f with
  | object o fetched =>
    cases h
    exact o.hasEmptyText_edges globalScope fetched
  | aliasOf owner record =>
    obtain ⟨target, hdata, -⟩ := of_aliasItem? h
    rw [Dns.hasEmptyText_aliasItem? hdata h, Finding.LacksText, hdata]
    simp only [Dns.RecordData.cname.injEq, exists_eq_left']
  | hosts owner records =>
    cases h
    exact Dns.hasEmptyText_addressItem owner records
  | page url response =>
    obtain ⟨target, htarget, rfl⟩ := Option.map_eq_some_iff.mp h
    exact iff_of_false (Http.hasEmptyText_responseItem htarget _ _ _) id
  | address a =>
    cases h
    exact iff_of_false (fun ⟨_, he, _⟩ => nomatch he) id

theorem unguarded_of_mem_dns {es : List Edge} {e : Edge} (h : ItemType.dns.Permits es) (he : e ∈ es) :
    ∃ r ∈ Relation.unguarded, e.relation? = some r := by
  have hsubset : ItemType.dns.relations ⊆ Relation.unguarded := by decide
  obtain ⟨r, hr, hfollows⟩ := h e he
  exact ⟨r, hsubset hr, hfollows.2⟩

theorem unguarded_of_emptyText (h : f.item? globalScope = some item) {e : Edge} (he : e ∈ item.edges)
    (hempty : e.query.text = "") : ∃ r ∈ Relation.unguarded, e.relation? = some r := by
  have hlacks := (hasEmptyText_of_item? h).mp ⟨e, he, hempty⟩
  cases f with
  | object o fetched =>
    cases h
    cases o with
    | entity en =>
      rcases List.mem_append.mp he with he | he
      · exact absurd ⟨e, he, hempty⟩ (Rdap.hasEmptyText_entityEdges _)
      · exact ⟨_, by decide, (Rdap.follows_autnumEdges _ e he).2⟩
    | nameserver n =>
      rcases List.mem_append.mp he with he | he
      · rcases List.mem_append.mp he with he | he
        · exact absurd ⟨e, he, hempty⟩ (Rdap.hasEmptyText_entityEdges _)
        · rw [List.mem_singleton.mp he]
          exact ⟨_, by decide, (Rdap.follows_dnsNameEdge _).2⟩
      · exact ⟨_, by decide, (Rdap.follows_addressEdges _ e he).2⟩
    | ipNetwork _ | domain _ | autnum _ => exact hlacks.elim
  | aliasOf owner record => exact unguarded_of_mem_dns (Dns.permits_aliasItem? h).1 he
  | hosts owner records =>
    cases h
    exact unguarded_of_mem_dns (Dns.permits_addressItem owner records).1 he
  | page url response => exact hlacks.elim
  | address a => exact hlacks.elim

/-- In every history a found item has an edge that asks for nothing exactly when a source left the text of one empty:
the handle of an autonomous system of an entity, the name or an address of a nameserver, or the owner or the target of
a name. All other edges ask for something. -/
theorem emptyText_iff (h : Reachable c world s) (hrun : ((execute c q ignoreCache).run world s).1 = some (.ok items)) :
    ∀ item ∈ items, ∃ f : Finding, f.type.name = q.type ∧ f.item? globalScope = some item ∧
      ((∃ e ∈ item.edges, e.query.text = "") ↔ f.LacksText) ∧
      ∀ e ∈ item.edges, e.query.text = "" → ∃ r ∈ Relation.unguarded, e.relation? = some r := by
  obtain ⟨type, htype, hshows⟩ := h.shows_of_ok hrun
  intro item hitem
  obtain ⟨f, rfl, hf⟩ := hshows item hitem
  exact ⟨f, ItemType.name_of_ofName? htype, hf, hasEmptyText_of_item? hf, fun e he => unguarded_of_emptyText hf he⟩

/-- An entity with a known autonomous system and one without a handle asks only for the known one, and lacks no text. -/
theorem no_emptyText_without_handle :
    let world := knowing (.entity { autnums := [{ handle := some "AS64512" }, { handle := none }] })
    let q : Query := ⟨"rdap-entity", .get, "ORG-1", "global"⟩
    Reachable {} world {} ∧ ∃ item, ((execute {} q false).run world {}).1 = some (.ok [item]) ∧
      item.edges.map (fun e => e.query.text) = ["AS64512"] ∧
      ∃ f : Finding, f.item? "global" = some item ∧ ¬f.LacksText := by
  intro world q
  have hs : Reachable {} world {} := Reachable.fresh 0
  obtain ⟨item, hrun, hedges⟩ : ∃ item, ((execute {} q false).run world {}).1 = some (.ok [item]) ∧
      item.edges.map (fun e => e.query.text) = ["AS64512"] := ⟨_, rfl, rfl⟩
  obtain ⟨f, -, hf, hiff, -⟩ := emptyText_iff hs hrun item List.mem_cons_self
  refine ⟨hs, item, hrun, hedges, f, hf, fun hlacks => ?_⟩
  obtain ⟨e, he, hempty⟩ := hiff.mpr hlacks
  have htext : e.query.text ∈ ["AS64512"] := hedges ▸ List.mem_map_of_mem he
  rw [hempty] at htext
  exact absurd htext (by decide)

/-- An entity with an autonomous system whose handle is empty asks for a system without a number. -/
theorem emptyText_of_empty_handle :
    let world := knowing (.entity { autnums := [{ handle := some "" }] })
    let q : Query := ⟨"rdap-entity", .get, "ORG-1", "global"⟩
    q.text ≠ "" ∧ Reachable {} world {} ∧ ∃ item e, ((execute {} q false).run world {}).1 = some (.ok [item]) ∧
      e ∈ item.edges ∧ e.query = ⟨"rdap-asn", .get, "", "global"⟩ := by
  intro world q
  exact ⟨by decide, Reachable.fresh 0, _, _, rfl, List.mem_cons_self, rfl⟩

end Resolve
end AssetGraph

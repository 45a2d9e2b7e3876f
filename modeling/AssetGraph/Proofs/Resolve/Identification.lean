import AssetGraph.Proofs.Rdap.Attributes
import AssetGraph.Proofs.Resolve.EdgeText

/-!
# What identifies items

An item is identified by its type, its scope and the text of one attribute. Names, pages and addresses are identified by
the text that they were found by. A registry object is identified by its handle, or a nameserver by its name, and only
where the registry reports one: nothing else takes its place.
-/
namespace AssetGraph

namespace Item

variable {item : Item}

theorem defect?_eq (htype : item.type ≠ "") (hscope : item.scope ≠ "") (hunique : item.uniqueAttribute ≠ "") :
    item.defect? =
      if item.uniqueValue?.getD "" = "" then some (.noUniqueValue item.type item.uniqueAttribute) else none := by
  rw [defect?, if_neg htype, if_neg hscope, if_neg hunique]
  cases item.uniqueValue? <;> rfl

theorem uniqueValue?_eq {value : String} (h : item.attributes.get? item.uniqueAttribute = some (.string value)) :
    item.uniqueValue? = some value := by
  simp only [uniqueValue?, h]

theorem reference?_eq {value : String} (h : item.uniqueValue?.getD "" = value) (hvalue : value ≠ "") :
    item.reference? = some (item.type ++ "/" ++ item.scope ++ "/" ++ value) := by
  cases hfound : item.uniqueValue? with
  | none =>
    rw [hfound] at h
    exact absurd h.symm hvalue
  | some found =>
    rw [hfound] at h
    rw [reference?, hfound, ← h]
    rfl

end Item

namespace Rdap.Object

def identity? : Object → Option String
  | ipNetwork n => n.handle
  | domain d => d.handle
  | entity e => e.handle
  | nameserver n => some n.ldhName
  | autnum a => a.handle

theorem get?_uniqueAttribute (o : Object) :
    o.attributes.get? o.uniqueAttribute = (o.identity?.filter (· ≠ "")).map Json.string := by
  rw [get?_attributes]
  cases o with
  | ipNetwork n => exact filter_ofText? n.handle
  | domain d => exact filter_ofText? d.handle
  | entity e => exact filter_ofText? e.handle
  | nameserver n => exact filter_ofText? (some n.ldhName)
  | autnum a => exact filter_ofText? a.handle

end Rdap.Object

theorem Http.get?_name (url : String) (r : Response) : (r.attributes url).get? "name" = some (.string url) := by
  rw [get?_attributes url r (by decide) (by decide)]
  exact Attributes.get?_ofFields_string [] "name" url _ (by simp)

theorem Address.get?_ip (a : Address) :
    (Attributes.ofFields a.properties.fields).get? "ip" = some (.string a.unmap.render) := by
  have hip : a.properties.ip = a.unmap.render := by
    rw [properties]
    cases a.unmap <;> rfl
  rw [← hip]
  exact Attributes.get?_ofFields_string [("interfaceLocalMulticast", .bool a.properties.interfaceLocalMulticast)] "ip"
    a.properties.ip _ (by simp)

namespace Resolve

variable {c : Config} {world : World} {q : Query} {s : State} {item : Item} {items : List Item} {ignoreCache : Bool}
  {f : Finding}

namespace Finding

/-- The text that identifies a finding; empty where its source left it out. -/
def identity : Finding → String
  | object o _ => o.identity?.getD ""
  | aliasOf owner _ => owner
  | hosts owner _ => owner
  | page url _ => url
  | address a => a.unmap.render

theorem uniqueAttribute_ne_empty (h : f.item? globalScope = some item) : item.uniqueAttribute ≠ "" := by
  cases f with
  | object o fetched =>
    cases h
    cases o with
    | nameserver n => exact (by decide : "ldhName" ≠ "")
    | ipNetwork _ | domain _ | entity _ | autnum _ => exact (by decide : "handle" ≠ "")
  | aliasOf owner record =>
    simp only [item?, Dns.aliasItem?] at h
    split at h <;> cases h
    exact (by decide : "name" ≠ "")
  | hosts owner records =>
    cases h
    exact (by decide : "name" ≠ "")
  | page url response =>
    obtain ⟨target, -, rfl⟩ := Option.map_eq_some_iff.mp h
    exact (by decide : "name" ≠ "")
  | address a =>
    cases h
    exact (by decide : "ip" ≠ "")

/-- An item is known by the text that identifies what it shows. -/
theorem uniqueValue_of_item? (h : f.item? globalScope = some item) : item.uniqueValue?.getD "" = f.identity := by
  cases f with
  | object o fetched =>
    cases h
    simp only [Item.uniqueValue?, o.get?_uniqueAttribute, identity]
    cases o.identity? with
    | none => rfl
    | some value => by_cases hvalue : value = "" <;> simp [Option.filter_some, hvalue]
  | aliasOf owner record =>
    suffices hvalue : item.uniqueValue? = some owner by rw [hvalue]; rfl
    simp only [item?, Dns.aliasItem?] at h
    split at h <;> cases h
    exact Item.uniqueValue?_eq (Attributes.get?_ofFields_string [] "name" owner _ (by simp))
  | hosts owner records =>
    suffices hvalue : item.uniqueValue? = some owner by rw [hvalue]; rfl
    cases h
    exact Item.uniqueValue?_eq (Attributes.get?_ofFields_string [] "name" owner _ (by simp))
  | page url response =>
    suffices hvalue : item.uniqueValue? = some url by rw [hvalue]; rfl
    obtain ⟨target, -, rfl⟩ := Option.map_eq_some_iff.mp h
    exact Item.uniqueValue?_eq (Http.get?_name url response)
  | address a =>
    suffices hvalue : item.uniqueValue? = some a.unmap.render by rw [hvalue]; rfl
    cases h
    exact Item.uniqueValue?_eq a.get?_ip

theorem identity_ne_empty (h : f.item? globalScope = some item) (htype : f.type = .http ∨ f.type = .ip) :
    f.identity ≠ "" := by
  cases f with
  | object o fetched => cases o <;> simp [type, Rdap.Object.type] at htype
  | aliasOf owner record => simp [type] at htype
  | hosts owner records => simp [type] at htype
  | page url response =>
    obtain ⟨target, htarget, -⟩ := Option.map_eq_some_iff.mp h
    rintro rfl
    cases htarget
  | address a => exact Address.render_ne_empty _

end Finding

/-- In every history a found item can be identified exactly when its source gave the text that identifies what was found:
the handle of a registry object, the name of a nameserver, or the owner of a name. Then the item has a reference by that
text; otherwise that text, and nothing else, is what it lacks. Pages and addresses can always be identified. -/
theorem identified_iff (h : Reachable c world s)
    (hrun : ((execute c q ignoreCache).run world s).1 = some (.ok items)) :
    ∀ item ∈ items, ∃ f : Finding, f.type.name = q.type ∧ f.item? globalScope = some item ∧
      (item.defect? = none ↔ f.identity ≠ "") ∧
      (f.identity ≠ "" → item.reference? = some (q.type ++ "/" ++ globalScope ++ "/" ++ f.identity)) ∧
      (f.identity = "" → item.defect? = some (.noUniqueValue q.type item.uniqueAttribute)) ∧
      (f.type = .http ∨ f.type = .ip → f.identity ≠ "") := by
  obtain ⟨type, htype, hshows⟩ := h.shows_of_ok hrun
  intro item hitem
  obtain ⟨f, rfl, hf⟩ := hshows item hitem
  have hname : f.type.name = q.type := ItemType.name_of_ofName? htype
  obtain ⟨hitemType, hscope⟩ := of_shows ⟨f, rfl, hf⟩
  have hitemNamed : item.type ≠ "" := by
    rw [hitemType]
    cases f.type <;> decide
  have hitemScoped : item.scope ≠ "" := by
    rw [hscope]
    decide
  have hdefect := Item.defect?_eq hitemNamed hitemScoped (Finding.uniqueAttribute_ne_empty hf)
  rw [Finding.uniqueValue_of_item? hf, hitemType, hname] at hdefect
  refine ⟨f, hname, hf, ?_, fun hidentity => ?_, fun hidentity => ?_, Finding.identity_ne_empty hf⟩
  · rw [hdefect]
    by_cases hidentity : f.identity = "" <;> simp [hidentity]
  · rw [Item.reference?_eq (Finding.uniqueValue_of_item? hf) hidentity, hitemType, hname, hscope]
  · rw [hdefect, if_pos hidentity]

/-- An entity that is found by the URL of its entry is known by the handle that the registry reports. -/
theorem identified_by_handle :
    let world := knowing (.entity { handle := some "ORG-1" })
    let q : Query := ⟨"rdap-entity", .search, "https://rdap.net/entity/org-1", "global"⟩
    Reachable {} world {} ∧ ∃ item, ((execute {} q false).run world {}).1 = some (.ok [item]) ∧
      item.defect? = none ∧ ∃ f : Finding, f.item? "global" = some item ∧ f.identity ≠ "" ∧
        item.reference? = some ("rdap-entity/global/" ++ f.identity) := by
  intro world q
  have hs : Reachable {} world {} := Reachable.fresh 0
  have hurl : Rdap.Url.parse? "https://rdap.net/entity/org-1" = some ⟨"https://rdap.net", .entity, "org-1"⟩ := by
    decide +kernel
  let item : Item := (Finding.object (.entity { handle := some "ORG-1" }) []).item? "global" |>.get rfl
  have hrun : ((execute {} q false).run world {}).1 = some (.ok [item]) := by
    simp only [execute, q, ItemType.ofName?, perform, search, Entities.search, urlOf, hurl]
    rfl
  have hdefect : item.defect? = none := by decide +kernel
  obtain ⟨f, -, hf, hiff, hreference, -⟩ := identified_iff hs hrun item List.mem_cons_self
  exact ⟨hs, item, hrun, hdefect, f, hf, hiff.mp hdefect, hreference (hiff.mp hdefect)⟩

/-- An entity that the registry reports without a handle cannot be identified, though it was asked for by one. -/
theorem unidentified_without_handle :
    let world := knowing (.entity {})
    let q : Query := ⟨"rdap-entity", .get, "ORG-1", "global"⟩
    q.text ≠ "" ∧ Reachable {} world {} ∧ ∃ item, ((execute {} q false).run world {}).1 = some (.ok [item]) ∧
      item.defect? = some (.noUniqueValue "rdap-entity" "handle") ∧ item.reference? = none := by
  intro world q
  exact ⟨by decide, Reachable.fresh 0, _, rfl, by decide +kernel, by decide +kernel⟩

end Resolve
end AssetGraph

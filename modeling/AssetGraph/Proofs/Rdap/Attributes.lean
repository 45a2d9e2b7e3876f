import AssetGraph.Network.Covering
import AssetGraph.Proofs.Item.Attributes
import AssetGraph.Rdap.Attributes
import Mathlib.Tactic.Common

/-!
# Reading attributes

An attribute has the value of the last field of its name that says something, and is missing when no field does. The two
ends of an allocation are shown as the registry reported them, and so is what an object is known by.
-/
namespace AssetGraph

namespace Attributes

variable {as : Attributes} {name other : String} {value : Json}

theorem get?_set_of_ne (h : other ≠ name) : (as.set other value).get? name = as.get? name := by
  cases value <;> simp [set, h]

theorem get?_set_self (h : value.isHollow = false) : (as.set name value).get? name = some value := by
  cases value with
  | null => cases h
  | _ => simp [set]

theorem get?_foldl_set (fields : List (String × Json)) (h : ∀ field ∈ fields, field.1 ≠ name) :
    (fields.foldl (fun as field => set as field.1 field.2) as).get? name = as.get? name := by
  induction fields generalizing as with
  | nil => rfl
  | cons field fields ih =>
    rw [List.foldl_cons, ih fun f hf => h f (List.mem_cons_of_mem _ hf)]
    exact get?_set_of_ne (h field List.mem_cons_self)

/-- The last field of a name counts, whatever it holds but null. -/
theorem get?_ofFields (before : List (String × Json)) (after : List (String × Json)) (hvalue : value ≠ .null)
    (hafter : ∀ field ∈ after, field.1 ≠ name) : (ofFields (before ++ (name, value) :: after)).get? name = some value := by
  have hlast : IsLastGiven (before ++ (name, value) :: after) name value :=
    ⟨before, after, rfl, hvalue, fun field hfield h => hafter field hfield h.1⟩
  exact get?_foldl_set_iff.mpr (.inl hlast)

theorem get?_ofFields_string (before : List (String × Json)) (name text : String) (after : List (String × Json))
    (hafter : ∀ field ∈ after, field.1 ≠ name) :
    (ofFields (before ++ (name, .string text) :: after)).get? name = some (.string text) :=
  get?_ofFields before after nofun hafter

/-- Fields of distinct names become the attributes that hold them in the order of the names. -/
theorem ofFields_eq_of_perm {fields : List (String × Json)} (hperm : as.entries.Perm fields)
    (hnull : ∀ field ∈ fields, field.2 ≠ .null) : ofFields fields = as := by
  have hdistinct : (fields.map Prod.fst).Nodup := (hperm.map Prod.fst).nodup_iff.mp (Keyed.nodup_keys as)
  apply Keyed.ext_get?
  intro name
  cases hget : as.get? name with
  | none =>
    have hother : ∀ field ∈ fields, field.1 ≠ name := by
      rintro ⟨name', value⟩ hfield rfl
      rw [Keyed.mem_entries_iff.mp (hperm.mem_iff.mpr hfield)] at hget
      cases hget
    exact get?_foldl_set fields hother
  | some value =>
    have hfield : (name, value) ∈ fields := hperm.mem_iff.mp (Keyed.mem_entries_iff.mpr hget)
    obtain ⟨before, after, rfl⟩ := List.append_of_mem hfield
    refine get?_ofFields before after (hnull _ hfield) fun field hafter hname => ?_
    rw [List.map_append, List.map_cons] at hdistinct
    have hfirst := (List.nodup_cons.mp (List.nodup_append.mp hdistinct).2.1).1
    exact hfirst (List.mem_map.mpr ⟨field, hafter, hname⟩)

end Attributes

/-- The address that an attribute shows, with blanks around it allowed. -/
def Item.address? (item : Item) (name : String) : Option Address :=
  ((item.attributes.get? name).bind Json.string?).bind fun text => (Network.readEnd text).toOption

theorem Item.address?_eq {item : Item} {name text : String} {a : Address}
    (hget : item.attributes.get? name = some (.string text)) (hread : Network.readEnd text = .ok a) :
    item.address? name = some a := by
  simp only [address?, hget, Option.bind_some, Json.string?, hread]
  rfl

namespace Rdap

open Json

theorem get?_present {fields : List (String × Json)} (h : (fields.map Prod.fst).Nodup) (name : String) :
    (present fields).get? name = (Keyed.lookupEntry name fields).filter fun value => !value.isHollow := by
  suffices hset : ∀ as : Attributes,
      ((fields.filter fun field => !field.2.isHollow).foldl (fun as field => as.set field.1 field.2) as).get? name =
        ((Keyed.lookupEntry name fields).filter fun value => !value.isHollow).or (as.get? name) by
    exact (hset Keyed.empty).trans (Option.or_none ..)
  induction fields with
  | nil => exact fun as => rfl
  | cons field fields ih =>
    intro as
    obtain ⟨k, value⟩ := field
    obtain ⟨hfirst, hrest⟩ := List.nodup_cons.mp h
    have hother : Keyed.lookupEntry k fields = none := Keyed.lookupEntry_eq_none_iff.mpr hfirst
    rw [Keyed.lookupEntry]
    cases hvalue : value.isHollow with
    | true =>
      rw [List.filter_cons_of_neg (by simp [hvalue]), ih hrest]
      split
      · rename_i hk
        rw [← hk, hother, Option.filter_some, hvalue]
        rfl
      · rfl
    | false =>
      rw [List.filter_cons_of_pos (by simp [hvalue]), List.foldl_cons, ih hrest]
      split
      · rename_i hk
        rw [← hk, hother, Attributes.get?_set_self hvalue, Option.filter_some, hvalue]
        rfl
      · rename_i hk
        exact congrArg (Option.or _) (Attributes.get?_set_of_ne hk)

theorem filter_ofText? (text : Option String) :
    (some (ofText? text)).filter (fun value => !value.isHollow) = (text.filter (· ≠ "")).map Json.string := by
  cases text with
  | none => rfl
  | some s => by_cases hs : s = "" <;> simp [ofText?, ofOption, Json.isHollow, Option.filter_some, hs]

def IpNetwork.ownFields (n : IpNetwork) : List (String × Json) :=
  [("country", ofText? n.country), ("endAddress", string n.endAddress), ("ipVersion", ofText? n.ipVersion),
    ("name", ofText? n.name), ("parentHandle", ofText? n.parentHandle), ("startAddress", string n.startAddress),
    ("type", ofText? n.type)]

def Domain.ownFields (d : Domain) : List (String × Json) :=
  [("ldhName", ofText? d.ldhName), ("publicIDs", array (d.publicIds.map PublicId.toJson)), ("secureDNS", ofOption id d.secureDns),
    ("unicodeName", ofText? d.unicodeName), ("variants", array d.variants)]

def Entity.ownFields (e : Entity) : List (String × Json) :=
  [("asEventActor", array (e.asEventActor.map Event.toJson)), ("publicIDs", array (e.publicIds.map PublicId.toJson)),
    ("roles", ofStrings e.roles), ("vCard", ofOption Card.toJson e.card)]

def Nameserver.ownFields (n : Nameserver) : List (String × Json) :=
  [("ipAddresses", ofOption HostAddresses.toJson n.addresses), ("ldhName", string n.ldhName),
    ("unicodeName", ofText? n.unicodeName)]

def Autnum.ownFields (a : Autnum) : List (String × Json) :=
  [("country", ofText? a.country), ("endAutnum", ofOption Json.ofNat a.endAutnum), ("ipVersion", ofText? a.ipVersion),
    ("name", ofText? a.name), ("startAutnum", ofOption Json.ofNat a.startAutnum), ("type", ofText? a.type)]

def Record.attributeNames : List String :=
  ["conformance", "events", "handle", "links", "notices", "objectClassName", "port43", "remarks", "status"]

namespace Object

/-- What an object has for each of its attributes, whether or not that says something. -/
def fields : Object → List (String × Json)
  | ipNetwork n => n.toRecord.fields ++ IpNetwork.ownFields n
  | domain d => d.toRecord.fields ++ d.ownFields
  | entity e => e.toRecord.fields ++ e.ownFields
  | nameserver n => n.toRecord.fields ++ n.ownFields
  | autnum a => a.toRecord.fields ++ Autnum.ownFields a

def attributeNames : Object → List String
  | ipNetwork _ =>
    Record.attributeNames ++ ["country", "endAddress", "ipVersion", "name", "parentHandle", "startAddress", "type"]
  | domain _ => Record.attributeNames ++ ["ldhName", "publicIDs", "secureDNS", "unicodeName", "variants"]
  | entity _ => Record.attributeNames ++ ["asEventActor", "publicIDs", "roles", "vCard"]
  | nameserver _ => Record.attributeNames ++ ["ipAddresses", "ldhName", "unicodeName"]
  | autnum _ => Record.attributeNames ++ ["country", "endAutnum", "ipVersion", "name", "startAutnum", "type"]

theorem map_fst_fields (o : Object) : o.fields.map Prod.fst = o.attributeNames := by cases o <;> rfl

theorem nodup_attributeNames (o : Object) : o.attributeNames.Nodup := by
  cases o <;> exact of_decide_eq_true rfl

theorem get?_attributes (o : Object) (name : String) :
    o.attributes.get? name = (Keyed.lookupEntry name o.fields).filter fun value => !value.isHollow := by
  have hdistinct : (o.fields.map Prod.fst).Nodup := o.map_fst_fields ▸ o.nodup_attributeNames
  rw [← get?_present hdistinct]
  cases o <;> rfl

theorem get?_attributes_string (o : Object) {name s : String} (h : Keyed.lookupEntry name o.fields = some (string s)) (hs : s ≠ "") :
    o.attributes.get? name = some (string s) := by
  rw [get?_attributes, h]
  simp [isHollow, Option.filter_some, hs]

end Object

theorem get?_startAddress (n : IpNetwork) (h : n.startAddress ≠ "") :
    n.attributes.get? "startAddress" = some (.string n.startAddress) :=
  (Object.ipNetwork n).get?_attributes_string rfl h

theorem get?_endAddress (n : IpNetwork) (h : n.endAddress ≠ "") :
    n.attributes.get? "endAddress" = some (.string n.endAddress) :=
  (Object.ipNetwork n).get?_attributes_string rfl h

end Rdap
end AssetGraph

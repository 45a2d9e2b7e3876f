import AssetGraph.Item.Wire
import AssetGraph.Proofs.Cache.History
import AssetGraph.Proofs.Json.Record
import AssetGraph.Proofs.Keyed

/-!
# What attributes hold

Attributes are begun empty, from a list of fields, or by reading JSON, and then set one by one. What is set is passed over when it is
null, so attributes that were not read hold the last value given for each name that is not null. What is read is taken as it is: a
null there stays until another value is given for its name.
-/
namespace AssetGraph.Attributes

open Json

variable {as : Attributes} {fields read given : List (String × Json)} {field : String × Json} {name : String} {v : Json}
  {counts : Json → Prop}

/-- Whether a value is the last under a name, among the values that count. -/
def IsLast (counts : Json → Prop) (fields : List (String × Json)) (name : String) (v : Json) : Prop :=
  ∃ before after, fields = before ++ (name, v) :: after ∧ counts v ∧ ∀ field ∈ after, ¬(field.1 = name ∧ counts field.2)

/-- Whether a value is the last that is given for a name and not null. -/
def IsLastGiven : List (String × Json) → String → Json → Prop := IsLast (· ≠ null)

def NothingGiven (given : List (String × Json)) (name : String) : Prop :=
  ∀ field ∈ given, ¬(field.1 = name ∧ field.2 ≠ null)

/-- Whether a value is the last that is read under a name, be it null. -/
def IsLastRead : List (String × Json) → String → Json → Prop := IsLast fun _ => True

def HasValue (as : Attributes) (name : String) : Prop := ∃ v, v ≠ null ∧ as.get? name = some v

namespace IsLast

theorem iff_exists_last : IsLast counts fields name v ↔
    ∃ before field after, fields = before ++ field :: after ∧ (field = (name, v) ∧ counts v) ∧
      ∀ field ∈ after, ¬(field.1 = name ∧ counts field.2) := by
  constructor
  · rintro ⟨before, after, hfields, hv, hafter⟩
    exact ⟨before, _, after, hfields, ⟨rfl, hv⟩, hafter⟩
  · rintro ⟨before, _, after, hfields, ⟨rfl, hv⟩, hafter⟩
    exact ⟨before, after, hfields, hv, hafter⟩

theorem nil : ¬IsLast counts [] name v := by
  rintro ⟨before, after, hfields, -⟩
  cases before <;> cases hfields

/-- The last field decides if it is of the name and counts, and otherwise leaves what the fields before it say. -/
theorem concat_iff : IsLast counts (fields ++ [field]) name v ↔
    (field = (name, v) ∧ counts v) ∨ IsLast counts fields name v ∧ ¬(field.1 = name ∧ counts field.2) := by
  rw [iff_exists_last, Cache.exists_last_concat_iff, ← iff_exists_last]

end IsLast

/-- Fields that are put one by one leave the last that counts, or what was there before when none does. -/
theorem get?_foldl_iff {put : Attributes → String × Json → Attributes}
    (hput : ∀ as field, (put as field).get? name = some v ↔
      (field = (name, v) ∧ counts v) ∨ as.get? name = some v ∧ ¬(field.1 = name ∧ counts field.2)) :
    (fields.foldl put as).get? name = some v ↔
      IsLast counts fields name v ∨ as.get? name = some v ∧ ∀ field ∈ fields, ¬(field.1 = name ∧ counts field.2) := by
  induction fields using List.reverseRecOn with
  | nil => simp [IsLast.nil]
  | append_singleton fields field ih =>
    rw [List.foldl_append, List.foldl_cons, List.foldl_nil, hput, ih, IsLast.concat_iff]
    simp only [List.forall_mem_append, List.forall_mem_singleton, or_and_right, or_assoc, and_assoc]

theorem get?_insert_iff (as : Attributes) (field : String × Json) :
    (as.insert field.1 field.2).get? name = some v ↔ field = (name, v) ∨ as.get? name = some v ∧ field.1 ≠ name := by
  obtain ⟨key, value⟩ := field
  rw [Keyed.get?_insert]
  by_cases hkey : key = name <;> simp [hkey]

theorem set_of_ne_null (h : v ≠ null) : as.set name v = as.insert name v := by
  cases v with
  | null => exact absurd rfl h
  | bool _ | number _ | string _ | array _ | object _ => rfl

theorem get?_set_iff (as : Attributes) (field : String × Json) :
    (as.set field.1 field.2).get? name = some v ↔
      (field = (name, v) ∧ v ≠ null) ∨ as.get? name = some v ∧ ¬(field.1 = name ∧ field.2 ≠ null) := by
  by_cases hnull : field.2 = null
  · have hset : as.set field.1 field.2 = as := by rw [hnull, set]
    have hother : ¬(field = (name, v) ∧ v ≠ null) := by
      rintro ⟨rfl, hv⟩
      exact hv hnull
    rw [hset, or_iff_right hother]
    exact (and_iff_left fun h => h.2 hnull).symm
  · have hv : field = (name, v) → v ≠ null := by
      rintro rfl
      exact hnull
    rw [set_of_ne_null hnull, get?_insert_iff, and_iff_left_of_imp hv, and_iff_left hnull]

theorem get?_foldl_set_iff : (given.foldl (fun as field => as.set field.1 field.2) as).get? name = some v ↔
    IsLastGiven given name v ∨ as.get? name = some v ∧ NothingGiven given name :=
  get?_foldl_iff get?_set_iff

def members : Json → List (String × Json)
  | object members => members
  | _ => []

def itemMembers (j : Json) : List (String × Json) :=
  match fields? ["type", "scope", "uniqueAttribute", "attributes", "linkedItemQueries"] j with
  | some [_, _, _, some attributes, _] => members attributes
  | _ => []

theorem get?_of_decode {j : Json} (h : decode j = .ok as) : as.get? name = some v ↔ IsLastRead (members j) name v := by
  cases j with
  | object members =>
    cases h
    have hlast : (Keyed.ofList members).get? name = some v ↔ IsLastRead members name v ∨
        (Keyed.empty : Attributes).get? name = some v ∧ ∀ field ∈ members, ¬(field.1 = name ∧ True) :=
      get?_foldl_iff fun as field => by simpa only [and_true] using get?_insert_iff as field
    rwa [Keyed.get?_empty, or_iff_left (fun h => nomatch h.1)] at hlast
  | null | bool _ | number _ | string _ | array _ => cases h

theorem decode_itemMembers {j : Json} {item : Item} (h : Item.decode j = .ok item) :
    decode (object (itemMembers j)) = .ok item.attributes := by
  unfold Item.decode at h
  split at h
  · rename_i type scope unique attributes edges hfields
    have hmembers : itemMembers j = members attributes := by rw [itemMembers, hfields]
    simp only [bind_eq_ok_iff] at h
    obtain ⟨_, -, _, -, _, -, as, has, _, -, hitem⟩ := h
    cases hitem
    rw [hmembers]
    cases attributes with
    | object members => exact has
    | null | bool _ | number _ | string _ | array _ => cases has
  · cases h

/-- How attributes come to be, from the members that are read and the fields that are given after them. -/
inductive Obtained : (read given : List (String × Json)) → Attributes → Prop where
  | empty : Obtained [] [] Keyed.empty
  | ofFields (fields : List (String × Json)) : Obtained [] fields (ofFields fields)
  | decode {j : Json} {as : Attributes} : decode j = .ok as → Obtained (members j) [] as
  | item {j : Json} {item : Item} : Item.decode j = .ok item → Obtained (itemMembers j) [] item.attributes
  | set {read given : List (String × Json)} {as : Attributes} (field : String × Json) :
    Obtained read given as → Obtained read (given ++ [field]) (as.set field.1 field.2)

/-- What attributes hold is the last that is given, or the last that was read where nothing is given. -/
theorem get?_of_obtained (h : Obtained read given as) :
    as.get? name = some v ↔ IsLastGiven given name v ∨ IsLastRead read name v ∧ NothingGiven given name := by
  have hnoneGiven : ¬IsLastGiven [] name v := IsLast.nil
  have hnoneRead : ¬IsLastRead [] name v := IsLast.nil
  have hnothing : NothingGiven [] name := List.forall_mem_nil _
  induction h with
  | empty => simp [hnoneGiven, hnoneRead]
  | ofFields fields =>
    rw [ofFields, get?_foldl_set_iff]
    simp [hnoneRead]
  | decode hdecode =>
    rw [get?_of_decode hdecode]
    simp [hnoneGiven, hnothing]
  | item hdecode =>
    rw [get?_of_decode (decode_itemMembers hdecode)]
    simp [hnoneGiven, hnothing, members]
  | @set read given as field _ ih =>
    have hnothing : NothingGiven (given ++ [field]) name ↔ NothingGiven given name ∧ ¬(field.1 = name ∧ field.2 ≠ null) := by
      simp only [NothingGiven, List.forall_mem_append, List.forall_mem_singleton]
    have hgiven : IsLastGiven (given ++ [field]) name v ↔
        (field = (name, v) ∧ v ≠ null) ∨ IsLastGiven given name v ∧ ¬(field.1 = name ∧ field.2 ≠ null) := IsLast.concat_iff
    rw [get?_set_iff, hgiven, hnothing]
    simp only [ih, or_and_right, or_assoc, and_assoc]

theorem mem_keys_iff_hasValue_iff : (name ∈ as.keys ↔ HasValue as name) ↔ as.get? name ≠ some null := by
  rw [Keyed.mem_keys_iff]
  constructor
  · intro h hnull
    obtain ⟨v, hv, hget⟩ := h.mp ⟨null, hnull⟩
    rw [hnull] at hget
    exact hv (Option.some.inj hget).symm
  · intro hnull
    constructor
    · rintro ⟨v, hget⟩
      refine ⟨v, ?_, hget⟩
      rintro rfl
      exact hnull hget
    · rintro ⟨v, -, hget⟩
      exact ⟨v, hget⟩

theorem get?_eq_null_iff (h : Obtained read given as) :
    as.get? name = some null ↔ IsLastRead read name null ∧ NothingGiven given name := by
  have hgiven : ¬IsLastGiven given name null := by
    rintro ⟨_, _, -, hcounts, -⟩
    exact hcounts rfl
  rw [get?_of_obtained h, or_iff_right hgiven]

/-- Attributes hold null exactly where it was the last to be read under a name for which nothing is given, and only there is an
attribute without a value. So those that were not read have an attribute just where a value is given, and it is the last one. -/
theorem null_only_as_read (h : Obtained read given as) :
    (∀ name v, as.get? name = some v ↔ IsLastGiven given name v ∨ IsLastRead read name v ∧ NothingGiven given name) ∧
    (∀ name, as.get? name = some null ↔ IsLastRead read name null ∧ NothingGiven given name) ∧
    (∀ name, (name ∈ as.keys ↔ HasValue as name) ↔ ¬(IsLastRead read name null ∧ NothingGiven given name)) ∧
    (read = [] → ∀ name, as.get? name ≠ some null ∧ (name ∈ as.keys ↔ HasValue as name) ∧
      ∀ v, as.get? name = some v ↔ IsLastGiven given name v) := by
  have hnull (name : String) : as.get? name = some null ↔ IsLastRead read name null ∧ NothingGiven given name :=
    get?_eq_null_iff h
  refine ⟨fun name v => get?_of_obtained h, hnull, fun name => ?_, ?_⟩
  · rw [mem_keys_iff_hasValue_iff, ne_eq, hnull]
  · rintro rfl name
    have hnone (v : Json) : ¬(IsLastRead [] name v ∧ NothingGiven given name) := fun h => IsLast.nil h.1
    have hnotNull : as.get? name ≠ some null := (hnull name).not.mpr (hnone null)
    refine ⟨hnotNull, mem_keys_iff_hasValue_iff.mpr hnotNull, fun v => ?_⟩
    rw [get?_of_obtained h, or_iff_left (hnone v)]

/-- A null that is read with an item is replaced by what is given for its name, and a null that is given replaces nothing. Of fields that
are not read the last one but null counts. -/
theorem null_only_as_read_replaced :
    let j := object [("attributes", object [("ip", string "192.0.2.1"), ("private", null)]), ("scope", string "global"),
      ("type", string "ip"), ("uniqueAttribute", string "ip")]
    let item : Item := ⟨"ip", "global", "ip", Keyed.ofList [("ip", string "192.0.2.1"), ("private", null)], []⟩
    let given := [("private", .bool true), ("ip", null)]
    let as := (item.attributes.set "private" (.bool true)).set "ip" null
    let fields := [("ip", .bool true), ("ip", string "192.0.2.1"), ("ip", null)]
    (Item.decode j = .ok item ∧ Obtained (itemMembers j) given as ∧ as.get? "private" = some (.bool true) ∧
      as.get? "ip" = some (string "192.0.2.1") ∧ ∀ name, as.get? name ≠ some null) ∧
    Obtained [] fields (ofFields fields) ∧ (ofFields fields).get? "ip" = some (string "192.0.2.1") := by
  intro j item given as fields
  constructor
  · have hdecode : Item.decode j = .ok item := rfl
    have hitem : Obtained (itemMembers j) [] item.attributes := .item hdecode
    have has : Obtained (itemMembers j) given as := (hitem.set ("private", .bool true)).set ("ip", null)
    obtain ⟨hget, hnull, -, -⟩ := null_only_as_read has
    have hprivate : IsLastGiven given "private" (.bool true) := ⟨[], [("ip", null)], rfl, nofun, by simp⟩
    have hip : IsLastRead (itemMembers j) "ip" (string "192.0.2.1") := ⟨[], [("private", null)], rfl, trivial, by simp⟩
    have hnothing : NothingGiven given "ip" := by simp [NothingGiven, given]
    refine ⟨hdecode, has, (hget _ _).mpr (.inl hprivate), (hget _ _).mpr (.inr ⟨hip, hnothing⟩), fun name hname => ?_⟩
    obtain ⟨⟨before, after, hread, -⟩, hnone⟩ := (hnull name).mp hname
    have hmem : (name, null) ∈ itemMembers j := hread ▸ List.mem_append_right before List.mem_cons_self
    have hmembers : itemMembers j = [("ip", string "192.0.2.1"), ("private", null)] := rfl
    obtain rfl : name = "private" := by simpa [hmembers] using hmem
    exact hnone ("private", .bool true) List.mem_cons_self ⟨rfl, nofun⟩
  · have hfields : Obtained [] fields (ofFields fields) := .ofFields fields
    have hip : IsLastGiven fields "ip" (string "192.0.2.1") := ⟨[("ip", .bool true)], [("ip", null)], rfl, nofun, by simp⟩
    obtain ⟨-, -, -, hgiven⟩ := null_only_as_read hfields
    exact ⟨hfields, ((hgiven rfl "ip").2.2 _).mpr hip⟩

/-- An item is read with an attribute that is there and holds null. -/
theorem null_held_as_read :
    ∃ item, Item.decode (object [("attributes", object [("ip", string "192.0.2.1"), ("private", null)]),
        ("scope", string "global"), ("type", string "ip"), ("uniqueAttribute", string "ip")]) = .ok item ∧
      "private" ∈ item.attributes.keys ∧ item.attributes.get? "private" = some null ∧ ¬HasValue item.attributes "private" := by
  refine ⟨_, rfl, by decide, rfl, ?_⟩
  rintro ⟨v, hv, hget⟩
  exact hv (Option.some.inj hget).symm

end AssetGraph.Attributes

import AssetGraph.Json.Decode
import AssetGraph.Proofs.Json.Ordered
import Mathlib.Data.List.Forall2

/-!
# What a record has from its members

Of an object whose members have distinct names, each one is put into the record once. What is observed of the record, where the field
of one name only changes it, is what is read from the member of that name, or what it was before. An array of fields is read as the
object that names them.
-/
namespace AssetGraph.Json

variable {α β : Type} {table : List (RecordField α)} {start a : α} {members : List (String × Json)} {name : String}
  {observe : α → β} {read : Json → β}

theorem map_eq_ok_iff {decoded : Decoded α} {f : α → β} {b : β} : decoded.map f = .ok b ↔ ∃ v, decoded = .ok v ∧ f v = b := by
  cases decoded <;> simp [Except.map]

theorem bind_eq_ok_iff {decoded : Decoded α} {next : α → Decoded β} {b : β} :
    decoded >>= next = .ok b ↔ ∃ v, decoded = .ok v ∧ next v = .ok b := by
  cases decoded with
  | error e => exact ⟨nofun, fun ⟨_, hv, _⟩ => nomatch hv⟩
  | ok v => exact ⟨fun h => ⟨v, rfl, h⟩, fun ⟨_, hv, h⟩ => Except.ok.inj hv ▸ h⟩

theorem isOrdered_of_fields? {names : List String} {j v : Json} {values : List (Option Json)} (hj : j.isOrdered = true)
    (h : fields? names j = some values) (hv : some v ∈ values) : v.isOrdered = true := by
  cases j with
  | object members =>
    cases h
    obtain ⟨name, -, hfound⟩ := List.mem_map.mp hv
    obtain ⟨m, hm, rfl⟩ := Option.map_eq_some_iff.mp hfound
    exact (isOrdered_object.mp hj).2 m (List.mem_of_find?_eq_some hm)
  | array items =>
    rw [fields?] at h
    split at h
    · cases h
      rcases List.mem_append.mp hv with hitem | hmissing
      · obtain ⟨item, hitem, heq⟩ := List.mem_map.mp hitem
        cases heq
        exact isOrdered_array.mp hj v hitem
      · cases List.eq_of_mem_replicate hmissing
    · cases h
  | null | bool _ | number _ | string _ => cases h

theorem mapM_cons_eq_ok_iff {decode : Json → Decoded α} {item : Json} {items : List Json} {as : List α} :
    (item :: items).mapM decode = .ok as ↔
      ∃ a others, decode item = .ok a ∧ items.mapM decode = .ok others ∧ as = a :: others := by
  rw [List.mapM_cons, bind_eq_ok_iff]
  refine exists_congr fun a => ?_
  rw [bind_eq_ok_iff, ← exists_and_left]
  refine exists_congr fun others => and_congr_right fun _ => and_congr_right fun _ => ?_
  exact ⟨fun h => (Except.ok.inj h).symm, fun h => congrArg Except.ok h.symm⟩

theorem mapM_eq_ok_iff {decode : Json → Decoded α} {items : List Json} {as : List α} :
    items.mapM decode = .ok as ↔ List.Forall₂ (fun item a => decode item = .ok a) items as := by
  induction items generalizing as with
  | nil =>
    rw [List.mapM_nil, List.forall₂_nil_left_iff]
    exact ⟨fun h => (Except.ok.inj h).symm, fun h => h ▸ rfl⟩
  | cons item items ih => simp only [mapM_cons_eq_ok_iff, List.forall₂_cons_left_iff, ih]

end AssetGraph.Json

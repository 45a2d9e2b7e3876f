import AssetGraph.Keyed
import Mathlib.Data.List.Sort

/-!
# What named entries hold

Entries under distinct names are what looking up each name gives, and two collections that give the same under every name are the
same collection.
-/
namespace AssetGraph.Keyed

variable {α : Type} {m m' : Keyed α} {key name : String} {value : α} {es es' : List (String × α)}

theorem sorted_of_keys (h : (es.map Prod.fst).Pairwise (· < ·)) : es.Pairwise fun a b => a.1 < b.1 := List.pairwise_map.mp h

theorem lookupEntry_eq_some_iff (h : es.Pairwise fun a b => a.1 < b.1) :
    lookupEntry key es = some value ↔ (key, value) ∈ es := by
  induction es with
  | nil => simp [lookupEntry]
  | cons e es ih =>
    obtain ⟨k, v⟩ := e
    obtain ⟨hbefore, hes⟩ := List.pairwise_cons.mp h
    rw [lookupEntry, List.mem_cons]
    split
    · rename_i hk
      subst hk
      have hnotMem : (k, value) ∉ es := fun hmem => String.lt_irrefl k (hbefore _ hmem)
      simp [hnotMem, eq_comm]
    · rename_i hk
      have hother : (key, value) ≠ (k, v) := fun heq => hk (congrArg Prod.fst heq).symm
      rw [ih hes, or_iff_right hother]

theorem lookupEntry_eq_none_iff : lookupEntry key es = none ↔ key ∉ es.map Prod.fst := by
  induction es with
  | nil => simp [lookupEntry]
  | cons e es ih =>
    obtain ⟨k, v⟩ := e
    rw [lookupEntry, List.map_cons, List.mem_cons, not_or, ← ih]
    split
    · rename_i hk
      simp [hk]
    · rename_i hk
      simp [Ne.symm hk]

theorem mem_entries_iff : (key, value) ∈ m.entries ↔ m.get? key = some value :=
  (lookupEntry_eq_some_iff m.sorted).symm

theorem mem_keys_iff : key ∈ m.keys ↔ ∃ value, m.get? key = some value := by
  simp only [keys, List.mem_map, Prod.exists, mem_entries_iff, exists_and_right, exists_eq_right]

theorem pairwise_keys (m : Keyed α) : m.keys.Pairwise (· < ·) := List.pairwise_map.mpr m.sorted

theorem nodup_keys (m : Keyed α) : m.keys.Nodup := by
  refine List.Pairwise.imp (fun {a b} hlt heq => ?_) m.pairwise_keys
  subst heq
  exact String.lt_irrefl a hlt

theorem ext_get? (h : ∀ key, m.get? key = m'.get? key) : m = m' := by
  obtain ⟨es, hes⟩ := m
  obtain ⟨es', hes'⟩ := m'
  have hirrefl : Std.Irrefl fun a b : String × α => a.1 < b.1 := ⟨fun a => String.lt_irrefl a.1⟩
  have hantisymm : Std.Antisymm fun a b : String × α => a.1 < b.1 :=
    ⟨fun _ _ hab hba => absurd hba (String.lt_asymm hab)⟩
  have hmem (e : String × α) : e ∈ es ↔ e ∈ es' := by
    rw [← lookupEntry_eq_some_iff hes, ← lookupEntry_eq_some_iff hes']
    exact Eq.congr_left (h e.1)
  have heq := hes.eq_of_mem_iff hes' hmem
  subst heq
  rfl

theorem get?_foldl_insert (h : es.Pairwise fun a b => a.1 < b.1) (m : Keyed α) (key : String) :
    (es.foldl (fun m e => m.insert e.1 e.2) m).get? key = (lookupEntry key es).or (m.get? key) := by
  induction es generalizing m with
  | nil => rfl
  | cons e es ih =>
    obtain ⟨k, v⟩ := e
    obtain ⟨hbefore, hes⟩ := List.pairwise_cons.mp h
    rw [List.foldl_cons, ih hes, get?_insert, lookupEntry]
    split
    · rename_i hk
      subst hk
      have hnone : lookupEntry k es = none := lookupEntry_eq_none_iff.mpr fun hmem => by
        obtain ⟨e, he, hkey⟩ := List.mem_map.mp hmem
        exact String.lt_irrefl k (hkey ▸ hbefore e he)
      rw [hnone]
      rfl
    · rfl

theorem ofList_entries (m : Keyed α) : ofList m.entries = m := by
  refine ext_get? fun key => ?_
  rw [ofList, get?_foldl_insert m.sorted, get?_empty, Option.or_none]
  rfl

theorem get?_alter (m : Keyed α) (key other : String) (f : Option α → α) :
    (m.alter key f).get? other = if key = other then some (f (m.get? key)) else m.get? other :=
  get?_insert m key other _

end AssetGraph.Keyed

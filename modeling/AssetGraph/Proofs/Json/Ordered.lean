import AssetGraph.Json.Reader
import Mathlib.Data.List.Induction
import Mathlib.Tactic.Common

/-!
# Objects in the order of their names

Every object in a value lists its members in increasing order of their names, so that no name stands twice. All values that are read
from a text are so.
-/
namespace AssetGraph

theorem Keyed.mem_of_mem_ofList {α : Type} {es : List (String × α)} {e : String × α} (h : e ∈ (ofList es).entries) : e ∈ es := by
  induction es using List.reverseRecOn with
  | nil => cases h
  | append_singleton es last ih =>
    rw [ofList, List.foldl_append] at h
    rcases mem_insertEntry h with rfl | hbefore
    · exact List.mem_append_right es List.mem_cons_self
    · exact List.mem_append_left _ (ih hbefore)

namespace Json

mutual

/-- Whether every object in a value lists its members in increasing order of their names. -/
def isOrdered : Json → Bool
  | array items => itemsAreOrdered items
  | object members => decide ((members.map Prod.fst).Pairwise (· < ·)) && membersAreOrdered members
  | _ => true

def itemsAreOrdered : List Json → Bool
  | [] => true
  | item :: rest => item.isOrdered && itemsAreOrdered rest

def membersAreOrdered : List (String × Json) → Bool
  | [] => true
  | (_, value) :: rest => value.isOrdered && membersAreOrdered rest

end

theorem isOrdered_array {items : List Json} : (array items).isOrdered = true ↔ ∀ item ∈ items, item.isOrdered = true := by
  rw [isOrdered]
  induction items with
  | nil => simp [itemsAreOrdered]
  | cons item rest ih => rw [itemsAreOrdered, Bool.and_eq_true, ih, List.forall_mem_cons]

theorem isOrdered_object {members : List (String × Json)} :
    (object members).isOrdered = true ↔
      (members.map Prod.fst).Pairwise (· < ·) ∧ ∀ m ∈ members, m.2.isOrdered = true := by
  have hmembers : membersAreOrdered members = true ↔ ∀ m ∈ members, m.2.isOrdered = true := by
    induction members with
    | nil => simp [membersAreOrdered]
    | cons m rest ih => rw [membersAreOrdered, Bool.and_eq_true, ih, List.forall_mem_cons]
  rw [isOrdered, Bool.and_eq_true, decide_eq_true_eq, hmembers]

theorem isOrdered_ofList {members : List (String × Json)} (h : ∀ m ∈ members, m.2.isOrdered = true) :
    (object (Keyed.ofList members).entries).isOrdered = true :=
  isOrdered_object.mpr ⟨List.pairwise_map.mpr (Keyed.ofList members).sorted, fun m hm => h m (Keyed.mem_of_mem_ofList hm)⟩

theorem isOrdered_of_readWord {word cs rest : List Char} {value v : Json} (hvalue : value.isOrdered = true)
    (h : readWord word value cs = some (v, rest)) : v.isOrdered = true := by
  rw [readWord] at h
  split at h
  · cases h
    exact hvalue
  · cases h

structure ReadsOrdered (fuel : Nat) : Prop where
  value : ∀ {depth cs v rest}, readValue fuel depth cs = some (v, rest) → v.isOrdered = true
  items : ∀ {depth cs items rest}, readItems fuel depth cs = some (items, rest) → ∀ item ∈ items, item.isOrdered = true
  members : ∀ {depth cs members rest}, readMembers fuel depth cs = some (members, rest) → ∀ m ∈ members, m.2.isOrdered = true

section

variable {fuel depth : Nat} {cs rest : List Char}

theorem ReadsOrdered.value_succ (h : ReadsOrdered fuel) {v : Json} (hread : readValue (fuel + 1) depth cs = some (v, rest)) :
    v.isOrdered = true := by
  rw [readValue.eq_def] at hread
  dsimp only at hread
  split at hread
  · obtain ⟨_, -, hv⟩ := Option.map_eq_some_iff.mp hread
    cases hv
    rfl
  · split at hread
    · cases hread
    · split at hread
      · cases hread
        rfl
      · obtain ⟨⟨items, _⟩, hitems, hv⟩ := Option.map_eq_some_iff.mp hread
        cases hv
        exact isOrdered_array.mpr (h.items hitems)
  · split at hread
    · cases hread
    · split at hread
      · cases hread
        rfl
      · obtain ⟨⟨members, _⟩, hmembers, hv⟩ := Option.map_eq_some_iff.mp hread
        cases hv
        exact isOrdered_ofList (h.members hmembers)
  · exact isOrdered_of_readWord rfl hread
  · exact isOrdered_of_readWord rfl hread
  · exact isOrdered_of_readWord rfl hread
  · obtain ⟨_, -, hv⟩ := Option.map_eq_some_iff.mp hread
    cases hv
    rfl

theorem ReadsOrdered.items_succ (h : ReadsOrdered fuel) {items : List Json}
    (hread : readItems (fuel + 1) depth cs = some (items, rest)) : ∀ item ∈ items, item.isOrdered = true := by
  rw [readItems, Option.bind_eq_bind, Option.bind_eq_some_iff] at hread
  obtain ⟨⟨item, after⟩, hitem, hread⟩ := hread
  have hfirst := h.value hitem
  dsimp only at hread
  split at hread
  · cases hread
    exact List.forall_mem_singleton.mpr hfirst
  · rw [Option.bind_eq_bind, Option.bind_eq_some_iff] at hread
    obtain ⟨⟨others, _⟩, hothers, hread⟩ := hread
    cases hread
    exact List.forall_mem_cons.mpr ⟨hfirst, h.items hothers⟩
  · cases hread

theorem ReadsOrdered.members_succ (h : ReadsOrdered fuel) {members : List (String × Json)}
    (hread : readMembers (fuel + 1) depth cs = some (members, rest)) : ∀ m ∈ members, m.2.isOrdered = true := by
  rw [readMembers] at hread
  split at hread
  · rw [Option.bind_eq_bind, Option.bind_eq_some_iff] at hread
    obtain ⟨⟨name, _⟩, -, hread⟩ := hread
    dsimp only at hread
    split at hread
    · rw [Option.bind_eq_bind, Option.bind_eq_some_iff] at hread
      obtain ⟨⟨value, after⟩, hvalue, hread⟩ := hread
      have hfirst := h.value hvalue
      dsimp only at hread
      split at hread
      · cases hread
        exact List.forall_mem_singleton.mpr hfirst
      · rw [Option.bind_eq_bind, Option.bind_eq_some_iff] at hread
        obtain ⟨⟨others, _⟩, hothers, hread⟩ := hread
        cases hread
        exact List.forall_mem_cons.mpr ⟨hfirst, h.members hothers⟩
      · cases hread
    · cases hread
  · cases hread

end

theorem readsOrdered (fuel : Nat) : ReadsOrdered fuel := by
  induction fuel with
  | zero => exact ⟨nofun, nofun, nofun⟩
  | succ fuel ih => exact ⟨ih.value_succ, ih.items_succ, ih.members_succ⟩

/-- Every value that is read from a text is ordered. -/
theorem isOrdered_of_parse? {s : String} {j : Json} (h : parse? s = some j) : j.isOrdered = true := by
  rw [parse?, Option.bind_eq_bind, Option.bind_eq_some_iff] at h
  obtain ⟨⟨value, rest⟩, hread, h⟩ := h
  dsimp only at h
  split at h
  · cases h
    exact (readsOrdered _).value hread
  · cases h

end Json
end AssetGraph

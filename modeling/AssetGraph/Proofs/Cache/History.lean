import Mathlib.Data.List.Induction
import Mathlib.Tactic.Common

/-!
# Histories

A history is a list of uses, each of which takes a state to the next. Two things are said of histories of any kind: which
use was the last to do something, and what the uses counted up to.
-/
namespace AssetGraph.Cache

variable {S U : Type}

/-- The last use of a history, or an earlier one after which nothing speaks against it. -/
theorem exists_last_concat_iff {does : List U → U → Prop} {spares : U → Prop} {uses : List U} {use : U} :
    (∃ before did after, uses ++ [use] = before ++ did :: after ∧ does before did ∧ ∀ u ∈ after, spares u) ↔
      does uses use ∨
        (∃ before did after, uses = before ++ did :: after ∧ does before did ∧ ∀ u ∈ after, spares u) ∧ spares use := by
  constructor
  · rintro ⟨before, did, after, huses, hdid, hafter⟩
    rcases List.eq_nil_or_concat after with rfl | ⟨earlier, last, rfl⟩
    · obtain ⟨rfl, hlast⟩ := List.append_inj' huses rfl
      cases hlast
      exact .inl hdid
    · rw [List.concat_eq_append, ← List.cons_append, ← List.append_assoc] at huses
      obtain ⟨rfl, hlast⟩ := List.append_inj' huses rfl
      cases hlast
      exact .inr ⟨⟨before, did, earlier, rfl, hdid, fun u hu => hafter u (by simp [hu])⟩, hafter use (by simp)⟩
  · rintro (hdid | ⟨⟨before, did, after, rfl, hdid, hafter⟩, huse⟩)
    · exact ⟨uses, use, [], rfl, hdid, nofun⟩
    · refine ⟨before, did, after ++ [use], by simp, hdid, fun u hu => ?_⟩
      rcases List.mem_append.mp hu with hu | hu
      · exact hafter u hu
      · rw [List.mem_singleton.mp hu]
        exact huse

theorem invariant_along {apply : U → S → S} (keeps : S → Prop) (hstep : ∀ use s, keeps s → keeps (apply use s)) {s : S}
    (hs : keeps s) (uses : List U) : keeps (uses.foldl (fun s use => apply use s) s) := by
  induction uses generalizing s with
  | nil => exact hs
  | cons use uses ih => exact ih (hstep use s hs)

/-- A number that some uses raise by one, and no other changes, is raised by how many of them there are. -/
theorem count_along {apply : U → S → S} (number : S → Nat) {p : U → Bool}
    (hstep : ∀ use s, number (apply use s) = number s + if p use then 1 else 0) (s : S) (uses : List U) :
    number (uses.foldl (fun s use => apply use s) s) = number s + uses.countP p := by
  induction uses generalizing s with
  | nil => rfl
  | cons use uses ih =>
    rw [List.foldl_cons, ih, hstep, List.countP_cons]
    omega

/-- The counts of the uses of a history added up, each taken in the state that its use finds. -/
def sumAlong (apply : U → S → S) (count : U → S → Nat) : S → List U → Nat
  | _, [] => 0
  | s, use :: uses => count use s + sumAlong apply count (apply use s) uses

theorem sumAlong_eq_countP (apply : U → S → S) (p : U → Bool) (s : S) (uses : List U) :
    sumAlong apply (fun use _ => if p use then 1 else 0) s uses = uses.countP p := by
  induction uses generalizing s with
  | nil => rfl
  | cons use uses ih => rw [sumAlong, ih, List.countP_cons, Nat.add_comm]

theorem sumAlong_add (apply : U → S → S) (count count' : U → S → Nat) (s : S) (uses : List U) :
    sumAlong apply (fun use s => count use s + count' use s) s uses =
      sumAlong apply count s uses + sumAlong apply count' s uses := by
  induction uses generalizing s with
  | nil => rfl
  | cons use uses ih =>
    simp only [sumAlong, ih]
    omega

/-- When every use balances what comes in with the level and what goes out, so does a history. -/
theorem balance_along {apply : U → S → S} (keeps : S → Prop) (level : S → Nat) {inflow outflow : U → S → Nat}
    (hkeeps : ∀ use s, keeps s → keeps (apply use s))
    (hstep : ∀ use s, keeps s → level (apply use s) + outflow use s = level s + inflow use s) {s : S} (hs : keeps s)
    (uses : List U) :
    level (uses.foldl (fun s use => apply use s) s) + sumAlong apply outflow s uses =
      level s + sumAlong apply inflow s uses := by
  induction uses generalizing s with
  | nil => rfl
  | cons use uses ih =>
    have hrest := ih (hkeeps use s hs)
    have hfirst := hstep use s hs
    simp only [sumAlong, List.foldl_cons]
    omega

end AssetGraph.Cache

import AssetGraph.Proofs.Text.Cut
import AssetGraph.Proofs.Text.Numeral
import AssetGraph.Rdap.Card
import Mathlib.Tactic.Common

/-!
# Values of contact cards as text

However its lists are nested, a value is shown as the texts in it, joined with commas: a list within a list makes no difference, and
neither does what has no text.
-/
namespace AssetGraph

theorem Binary64.layout_ne_nil (d : Digits) : layout d ≠ [] := by
  unfold layout
  dsimp only
  split
  · simp
  · split
    · simp
    · split
      · simp
      · simp

theorem Number.render_ne_nil (n : Number) : n.render ≠ [] := by
  cases n with
  | integer value =>
    rw [render]
    split
    · exact List.cons_ne_nil _ _
    · exact Numeral.render_ne_nil 10 _
  | decimal value =>
    rw [render, Binary64.render]
    split
    · exact List.cons_ne_nil _ _
    · split
      · exact List.cons_ne_nil _ _
      · exact Binary64.layout_ne_nil _

namespace Rdap.Card

open Json

mutual

/-- The texts in a value, from the first to the last: its strings but the empty ones, its numbers and its truth values. -/
def leaves : Json → List String
  | string s => if s = "" then [] else [s]
  | number n => [String.ofList n.render]
  | .bool b => [boolText b]
  | array items => leavesOfItems items
  | _ => []

def leavesOfItems : List Json → List String
  | [] => []
  | item :: rest => leaves item ++ leavesOfItems rest

end

mutual

theorem ne_empty_of_mem_leaves {text : String} : ∀ {v : Json}, text ∈ leaves v → text ≠ ""
  | string s, h => by
    rw [leaves] at h
    split at h
    · cases h
    · rwa [List.mem_singleton.mp h]
  | number n, h => by
    rw [leaves, List.mem_singleton] at h
    rw [h, ne_eq, String.ofList_eq_empty_iff]
    exact n.render_ne_nil
  | .bool b, h => by
    rw [leaves, List.mem_singleton] at h
    cases b <;> rw [h] <;> decide
  | array items, h => by
    rw [leaves] at h
    exact ne_empty_of_mem_leavesOfItems h
  | null, h => by simp [leaves] at h
  | object _, h => by simp [leaves] at h

theorem ne_empty_of_mem_leavesOfItems {text : String} : ∀ {items : List Json}, text ∈ leavesOfItems items → text ≠ ""
  | [], h => by simp [leavesOfItems] at h
  | item :: rest, h => by
    rw [leavesOfItems, List.mem_append] at h
    rcases h with hitem | hrest
    · exact ne_empty_of_mem_leaves hitem
    · exact ne_empty_of_mem_leavesOfItems hrest

end

theorem flattenItems_eq_filter (items : List Json) : flattenItems items = (items.map flatten).filter (· ≠ "") := by
  induction items with
  | nil => rfl
  | cons item rest ih =>
    rw [flattenItems, List.map_cons]
    by_cases hitem : flatten item = "" <;> simp [hitem, ih]

theorem ne_empty_of_mem_flattenItems {text : String} {items : List Json} (h : text ∈ flattenItems items) : text ≠ "" := by
  rw [flattenItems_eq_filter] at h
  exact of_decide_eq_true (List.mem_filter.mp h).2

mutual

/-- A value is shown as its texts. -/
theorem flatten_eq_join : ∀ v, flatten v = Text.join ", " (leaves v)
  | string s => by
    rw [flatten, leaves]
    split
    · assumption
    · rfl
  | number n => by rw [flatten, leaves, Text.join]
  | .bool b => by rw [flatten, leaves, Text.join]
  | array items => by rw [flatten, leaves, join_flattenItems items]
  | null => by simp [flatten, leaves, Text.join]
  | object _ => by simp [flatten, leaves, Text.join]

theorem join_flattenItems : ∀ items, Text.join ", " (flattenItems items) = Text.join ", " (leavesOfItems items)
  | [] => by rw [flattenItems, leavesOfItems]
  | item :: rest => by
    have hitem := flatten_eq_join item
    have hrest := join_flattenItems rest
    have hempty : flatten item = "" ↔ leaves item = [] := by
      rw [hitem]
      exact Text.join_eq_empty_iff fun text => ne_empty_of_mem_leaves
    have hnone : flattenItems rest = [] ↔ leavesOfItems rest = [] := by
      have hjoined : Text.join ", " (flattenItems rest) = "" ↔ flattenItems rest = [] :=
        Text.join_eq_empty_iff fun text => ne_empty_of_mem_flattenItems
      rw [← hjoined, hrest]
      exact Text.join_eq_empty_iff fun text => ne_empty_of_mem_leavesOfItems
    rw [flattenItems, leavesOfItems]
    split
    · rename_i hskip
      rw [hempty.mp hskip, hrest, List.nil_append]
    · rename_i hshown
      by_cases hlast : leavesOfItems rest = []
      · rw [hnone.mpr hlast, hlast, List.append_nil, Text.join, hitem]
      · rw [Text.join_append (mt hempty.mpr hshown) hlast, Text.join, hitem, hrest]
        exact mt hnone.mp hlast

end

theorem leavesOfItems_append (items items' : List Json) :
    leavesOfItems (items ++ items') = leavesOfItems items ++ leavesOfItems items' := by
  induction items with
  | nil => rfl
  | cons item rest ih => rw [List.cons_append, leavesOfItems, leavesOfItems, ih, List.append_assoc]

theorem flatten_array_congr {items items' : List Json} (h : leavesOfItems items = leavesOfItems items') :
    flatten (array items) = flatten (array items') := by
  rw [flatten_eq_join, flatten_eq_join, leaves, leaves, h]

/-- A value is shown as the texts in it with commas between them, and a property as its values that show something with spaces
between them. So a list within a list may be written out in it, and a null left out. -/
theorem values_shown_as_leaves :
    (∀ v, flatten v = ", ".intercalate (leaves v)) ∧
    (∀ p : Property, p.text = " ".intercalate ((p.values.map flatten).filter (· ≠ ""))) ∧
    (∀ before inner after, flatten (array (before ++ array inner :: after)) = flatten (array (before ++ inner ++ after))) ∧
    ∀ before after, flatten (array (before ++ null :: after)) = flatten (array (before ++ after)) := by
  refine ⟨fun v => ?_, fun p => ?_, fun before inner after => flatten_array_congr ?_, fun before after => flatten_array_congr ?_⟩
  · rw [flatten_eq_join, Text.join_eq_intercalate]
  · rw [Property.text, flattenItems_eq_filter, Text.join_eq_intercalate]
  · simp only [leavesOfItems_append, leavesOfItems, leaves, List.append_assoc]
  · simp only [leavesOfItems_append, leavesOfItems, leaves, List.nil_append]

end Rdap.Card
end AssetGraph

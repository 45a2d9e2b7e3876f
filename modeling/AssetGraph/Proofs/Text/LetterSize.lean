import AssetGraph.Text
import Mathlib.Data.List.Forall2
import Mathlib.Tactic.Common

/-!
# Texts that differ in the size of letters

Two texts become the same once the letters A to Z are made small just when they have the same characters but for the size of
those letters.
-/
namespace AssetGraph.Text

variable {c d : Char} {s t : String}

/-- Whether two characters are the same but for the size of a letter from A to Z. -/
def SameLetter (c d : Char) : Prop :=
  c = d ∨ (c.isUpper = true ∧ d.toNat = c.toNat + 32) ∨ (d.isUpper = true ∧ c.toNat = d.toNat + 32)

def SameLetters (s t : String) : Prop := List.Forall₂ SameLetter s.toList t.toList

theorem isUpper_iff : c.isUpper = true ↔ 65 ≤ c.toNat ∧ c.toNat ≤ 90 := by
  have hletter : c.isUpper = decide ('A'.val ≤ c.val ∧ c.val ≤ 'Z'.val) := rfl
  rw [hletter, decide_eq_true_iff]
  exact and_congr UInt32.le_iff_toNat_le UInt32.le_iff_toNat_le

theorem toNat_toLower (c : Char) : c.toLower.toNat = if c.isUpper then c.toNat + 32 else c.toNat := by
  unfold Char.toLower
  split
  · rename_i hletter
    have hupper : c.isUpper = true := isUpper_iff.mpr (hletter.imp UInt32.le_iff_toNat_le.mp UInt32.le_iff_toNat_le.mp)
    have hlast : c.toNat ≤ 90 := (isUpper_iff.mp hupper).2
    have hsum : (c.toNat + 32) % UInt32.size = c.toNat + 32 := Nat.mod_eq_of_lt (by rw [UInt32.size]; omega)
    rw [if_pos hupper]
    exact hsum
  · rename_i hother
    rw [if_neg fun hupper => hother ((isUpper_iff.mp hupper).imp UInt32.le_iff_toNat_le.mpr UInt32.le_iff_toNat_le.mpr)]

theorem toLower_eq_toLower_iff : c.toLower = d.toLower ↔ SameLetter c d := by
  rw [SameLetter, ← Char.toNat_inj, ← Char.toNat_inj, toNat_toLower, toNat_toLower]
  simp only [isUpper_iff]
  split <;> split <;> omega

theorem asciiLower_eq_asciiLower_iff : asciiLower s = asciiLower t ↔ SameLetters s t := by
  rw [asciiLower, asciiLower, String.ofList_inj, SameLetters, ← List.forall₂_eq_eq_eq, List.forall₂_map_left_iff,
    List.forall₂_map_right_iff]
  simp only [toLower_eq_toLower_iff]

instance (s t : String) : Decidable (SameLetters s t) := decidable_of_iff _ asciiLower_eq_asciiLower_iff

end AssetGraph.Text

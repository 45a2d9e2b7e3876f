import Mathlib.Data.String.Basic

/-!
# The order of bytes

Texts are in the order of their characters, and the bytes in which UTF-8 writes them are in the same order. A leading byte of a
character shows how many bytes follow, more of them for a later character, and each of these holds six further bits.
-/
namespace AssetGraph.Text

variable {m n bound offset : Nat} {write : Nat → List UInt8} {c d : Char} {cs ds : List Char} {s t : String}

def utf8 (s : String) : List UInt8 := s.toUTF8.data.toList

theorem utf8_eq (s : String) : utf8 s = s.toList.flatMap String.utf8EncodeChar := by
  rw [utf8, String.toUTF8_eq_toByteArray, ← String.utf8Encode_toList, List.utf8Encode, List.data_toByteArray]

/-- Whether the numbers below a bound are written in their order, whatever is written behind them. -/
def WritesInOrder (bound : Nat) (write : Nat → List UInt8) : Prop :=
  ∀ m n, m < n → n < bound → ∀ xs ys, write m ++ xs < write n ++ ys

theorem byte_cons_lt (h : m < n) (hn : n < 256) (xs ys : List UInt8) : UInt8.ofNat m :: xs < UInt8.ofNat n :: ys := by
  have hbyte : UInt8.ofNat m < UInt8.ofNat n := by
    rw [UInt8.lt_iff_toNat_lt, UInt8.toNat_ofNat', UInt8.toNat_ofNat']
    omega
  exact List.cons_lt_cons_iff.mpr (.inl hbyte)

/-- A leading byte holds a number above an offset. -/
theorem writesInOrder_leading (h : bound + offset ≤ 256) :
    WritesInOrder bound fun n => [UInt8.ofNat (n % bound + offset)] := by
  intro m n hmn hn xs ys
  have hm := Nat.mod_eq_of_lt (hmn.trans hn)
  have hn' := Nat.mod_eq_of_lt hn
  dsimp only
  rw [hm, hn']
  exact byte_cons_lt (by omega) (by omega) xs ys

/-- A byte that follows holds the six bits behind a number. -/
theorem WritesInOrder.following (h : WritesInOrder bound write) :
    WritesInOrder (64 * bound) fun n => write (n / 64) ++ [UInt8.ofNat (n % 64 + 128)] := by
  intro m n hmn hn xs ys
  dsimp only
  rw [List.append_assoc, List.append_assoc]
  rcases Nat.lt_or_eq_of_le (Nat.div_le_div_right hmn.le) with hfront | hfront
  · exact h _ _ hfront (by omega) _ _
  · rw [hfront]
    exact List.append_left_lt (byte_cons_lt (by omega) (by omega) xs ys)

theorem writesInOrder_two :
    WritesInOrder 2048 fun n => [UInt8.ofNat (n / 64 % 32 + 192), UInt8.ofNat (n % 64 + 128)] := by
  have hleading : WritesInOrder 32 fun n => [UInt8.ofNat (n % 32 + 192)] := writesInOrder_leading (by decide)
  exact hleading.following

theorem writesInOrder_three : WritesInOrder 65536 fun n =>
    [UInt8.ofNat (n / 4096 % 16 + 224), UInt8.ofNat (n / 64 % 64 + 128), UInt8.ofNat (n % 64 + 128)] := by
  have hleading : WritesInOrder 16 fun n => [UInt8.ofNat (n % 16 + 224)] := writesInOrder_leading (by decide)
  have hbytes := hleading.following.following
  simp only [Nat.div_div_eq_div_mul] at hbytes
  exact hbytes

theorem writesInOrder_four : WritesInOrder 2097152 fun n =>
    [UInt8.ofNat (n / 262144 % 8 + 240), UInt8.ofNat (n / 4096 % 64 + 128), UInt8.ofNat (n / 64 % 64 + 128),
      UInt8.ofNat (n % 64 + 128)] := by
  have hleading : WritesInOrder 8 fun n => [UInt8.ofNat (n % 8 + 240)] := writesInOrder_leading (by decide)
  have hbytes := hleading.following.following.following
  simp only [Nat.div_div_eq_div_mul] at hbytes
  exact hbytes

theorem utf8EncodeChar_append_lt (h : c < d) (xs ys : List UInt8) :
    String.utf8EncodeChar c ++ xs < String.utf8EncodeChar d ++ ys := by
  have hlt : c.val.toNat < d.val.toNat := UInt32.lt_iff_toNat_lt.mp h
  have hlast : d.val.toNat < 0x110000 := by
    have hvalid : d.val.toNat.isValidChar := d.valid
    unfold Nat.isValidChar at hvalid
    omega
  unfold String.utf8EncodeChar
  dsimp only
  generalize c.val.toNat = m at *
  generalize d.val.toNat = n at *
  by_cases hone : n ≤ 0x7f
  · rw [if_pos hone, if_pos (by omega)]
    exact byte_cons_lt hlt (by omega) xs ys
  by_cases htwo : n ≤ 0x7ff
  · rw [if_neg hone, if_pos htwo]
    split_ifs
    · exact byte_cons_lt (by omega) (by omega) xs _
    · exact writesInOrder_two m n hlt (by omega) xs ys
    · omega
    · omega
  by_cases hthree : n ≤ 0xffff
  · rw [if_neg hone, if_neg htwo, if_pos hthree]
    split_ifs
    · exact byte_cons_lt (by omega) (by omega) xs _
    · exact byte_cons_lt (by omega) (by omega) _ _
    · exact writesInOrder_three m n hlt (by omega) xs ys
    · omega
  · rw [if_neg hone, if_neg htwo, if_neg hthree]
    split_ifs
    · exact byte_cons_lt (by omega) (by omega) xs _
    · exact byte_cons_lt (by omega) (by omega) _ _
    · exact byte_cons_lt (by omega) (by omega) _ _
    · exact writesInOrder_four m n hlt (by omega) xs ys

theorem utf8EncodeChars_lt (h : cs < ds) : cs.flatMap String.utf8EncodeChar < ds.flatMap String.utf8EncodeChar := by
  induction cs generalizing ds with
  | nil =>
    cases ds with
    | nil => exact absurd h (List.not_lt_nil [])
    | cons d ds =>
      obtain ⟨byte, bytes, hbytes⟩ := List.exists_cons_of_ne_nil (String.utf8EncodeChar_ne_nil (c := d))
      rw [List.flatMap_nil, List.flatMap_cons, hbytes, List.cons_append]
      exact List.nil_lt_cons ..
  | cons c cs ih =>
    cases ds with
    | nil => exact absurd h (List.not_lt_nil (c :: cs))
    | cons d ds =>
      rw [List.flatMap_cons, List.flatMap_cons]
      rcases List.cons_lt_cons_iff.mp h with hcd | ⟨rfl, hrest⟩
      · exact utf8EncodeChar_append_lt hcd _ _
      · exact List.append_left_lt (ih hrest)

/-- A text is before another exactly when its bytes are before those of the other. -/
theorem utf8_lt_iff : utf8 s < utf8 t ↔ s < t := by
  have hmono {s t : String} (h : s < t) : utf8 s < utf8 t := by
    rw [utf8_eq, utf8_eq]
    exact utf8EncodeChars_lt (String.lt_iff.mp h)
  refine ⟨fun h => ?_, hmono⟩
  rcases lt_trichotomy s t with hlt | rfl | hgt
  · exact hlt
  · exact absurd h (List.lt_irrefl _)
  · exact absurd (hmono hgt) (List.lt_asymm h)

end AssetGraph.Text

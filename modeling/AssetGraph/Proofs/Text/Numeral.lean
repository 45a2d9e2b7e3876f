import AssetGraph.Numeral
import AssetGraph.Proofs.Text.Cut
import Mathlib.Algebra.Group.Nat.Defs
import Mathlib.Data.List.Induction
import Mathlib.Tactic.Common

/-!
# Reading what was written in digits

A written number has its digits from the highest, without zeros ahead, and no more of them than its size asks for. Reading it
in the same base gives the number back, and a list of digits by position is the number cut to that many positions.
-/
namespace AssetGraph.Numeral

variable {base n d bound : Nat}

theorem digitValue?_digit (hd : d < base) (hbase : base ≤ 16) : digitValue? base (digit d) = some d := by
  have hall : ∀ base ≤ 16, ∀ d < base, digitValue? base (digit d) = some d := by decide +kernel
  exact hall base hbase d hd

theorem isSome_digitValue?_of_le {larger : Nat} {c : Char} (hle : base ≤ larger) (h : (digitValue? base c).isSome = true) :
    (digitValue? larger c).isSome = true := by
  obtain ⟨d, hd⟩ := Option.isSome_iff_exists.mp h
  obtain ⟨hvalue, hsmall⟩ := Option.filter_eq_some_iff.mp hd
  have hlarger : decide (d < larger) = true := decide_eq_true (Nat.lt_of_lt_of_le (of_decide_eq_true hsmall) hle)
  exact Option.isSome_of_eq_some (Option.filter_eq_some_iff.mpr ⟨hvalue, hlarger⟩)

theorem ofDigits_concat (base : Nat) (ds : List Nat) (d : Nat) :
    ofDigits base (ds ++ [d]) = ofDigits base ds * base + d := by
  rw [ofDigits, List.foldl_append]
  rfl

theorem ofDigits_cons (base d : Nat) (ds : List Nat) :
    ofDigits base (d :: ds) = d * base ^ ds.length + ofDigits base ds := by
  induction ds using List.reverseRecOn with
  | nil => simp [ofDigits]
  | append_singleton ds last ih =>
    rw [← List.cons_append, ofDigits_concat, ofDigits_concat, ih, List.length_append, List.length_singleton, Nat.pow_succ,
      Nat.add_mul, Nat.mul_assoc, Nat.add_assoc]

theorem ofDigits_lt {ds : List Nat} (h : ∀ d ∈ ds, d < base) : ofDigits base ds < base ^ ds.length := by
  induction ds using List.reverseRecOn with
  | nil => simp [ofDigits]
  | append_singleton ds last ih =>
    have hlast : last < base := h last (by simp)
    have hrest : ofDigits base ds + 1 ≤ base ^ ds.length := ih fun d hd => h d (by simp [hd])
    have hscaled := Nat.mul_le_mul_right base hrest
    rw [ofDigits_concat, List.length_append, List.length_singleton, Nat.pow_succ]
    rw [Nat.add_mul, Nat.one_mul] at hscaled
    omega

theorem render_of_lt (h : n < base) : render base n = [digit n] := by
  rw [render, dif_pos (.inl h)]

theorem render_of_le (hbase : 2 ≤ base) (h : base ≤ n) :
    render base n = render base (n / base) ++ [digit (n % base)] := by
  rw [render, dif_neg (by omega)]

/-- Induction over the digits of a number, the last one first. -/
theorem digits_induction {motive : Nat → Prop} (hbase : 2 ≤ base) (one : ∀ n, n < base → motive n)
    (more : ∀ n, base ≤ n → motive (n / base) → motive n) (n : Nat) : motive n := by
  induction n using Nat.strongRecOn with
  | ind n ih =>
    rcases Nat.lt_or_ge n base with hlow | hhigh
    · exact one n hlow
    · exact more n hhigh (ih _ (Nat.div_lt_self (by omega) hbase))

theorem exists_digits_render (hbase : 2 ≤ base) (hlimit : base ≤ 16) (n : Nat) :
    ∃ ds, (render base n).mapM (digitValue? base) = some ds ∧ ofDigits base ds = n := by
  induction n using digits_induction hbase with
  | one n hlow =>
    refine ⟨[n], ?_, ?_⟩
    · rw [render_of_lt hlow]
      simp [digitValue?_digit hlow hlimit]
    · simp [ofDigits]
  | more n hhigh ih =>
    obtain ⟨ds, hread, hvalue⟩ := ih
    have hlast : n % base < base := Nat.mod_lt _ (by omega)
    refine ⟨ds ++ [n % base], ?_, ?_⟩
    · rw [render_of_le hbase hhigh, List.mapM_append, hread]
      simp [digitValue?_digit hlast hlimit]
    · rw [ofDigits_concat, hvalue, Nat.mul_comm]
      exact Nat.div_add_mod n base

theorem render_ne_nil (base n : Nat) : render base n ≠ [] := by
  rw [render]
  split
  · exact List.cons_ne_nil _ _
  · exact List.append_ne_nil_of_right_ne_nil _ (List.cons_ne_nil _ _)

theorem read?_render (hbase : 2 ≤ base) (hlimit : base ≤ 16) (n : Nat) : read? base (render base n) = some n := by
  obtain ⟨ds, hread, hvalue⟩ := exists_digits_render hbase hlimit n
  rw [read?, if_neg (by simp [render_ne_nil]), hread, Option.map_some, hvalue]

theorem length_render_le (hbase : 2 ≤ base) {more : Nat} (h : n < base ^ (more + 1)) :
    (render base n).length ≤ more + 1 := by
  induction n using digits_induction hbase generalizing more with
  | one n hlow =>
    rw [render_of_lt hlow]
    exact Nat.succ_le_succ (Nat.zero_le more)
  | more n hhigh ih =>
    cases more with
    | zero =>
      rw [Nat.zero_add, Nat.pow_one] at h
      exact absurd h (Nat.not_lt.mpr hhigh)
    | succ more =>
      have hrest : n / base < base ^ (more + 1) := Nat.div_lt_of_lt_mul (by rwa [Nat.pow_succ, Nat.mul_comm] at h)
      rw [render_of_le hbase hhigh, List.length_append, List.length_singleton]
      exact Nat.succ_le_succ (ih hrest)

theorem mem_render (hbase : 2 ≤ base) {c : Char} (h : c ∈ render base n) : ∃ d < base, c = digit d := by
  induction n using digits_induction hbase with
  | one n hlow =>
    rw [render_of_lt hlow, List.mem_singleton] at h
    exact ⟨n, hlow, h⟩
  | more n hhigh ih =>
    rw [render_of_le hbase hhigh, List.mem_append, List.mem_singleton] at h
    rcases h with hrest | hlast
    · exact ih hrest
    · exact ⟨n % base, Nat.mod_lt _ (by omega), hlast⟩

theorem notMem_render (hbase : 2 ≤ base) (hlimit : base ≤ 16) {c : Char} (hc : ∀ d < 16, digit d ≠ c) :
    c ∉ render base n := by
  intro h
  obtain ⟨d, hd, rfl⟩ := mem_render hbase h
  exact hc d (by omega) rfl

theorem head?_render_ne_zero (hbase : 2 ≤ base) (hlimit : base ≤ 16) (h : n ≠ 0) : (render base n).head? ≠ some '0' := by
  induction n using digits_induction hbase with
  | one n hlow =>
    have hdigit : ∀ d < 16, d ≠ 0 → digit d ≠ '0' := by decide
    rw [render_of_lt hlow, List.head?_cons]
    exact fun heq => hdigit n (by omega) h (Option.some.inj heq)
  | more n hhigh ih =>
    have hrest : n / base ≠ 0 := by
      rw [ne_eq, Nat.div_eq_zero_iff]
      omega
    obtain ⟨first, others, hcons⟩ := List.exists_cons_of_ne_nil (render_ne_nil base (n / base))
    rw [render_of_le hbase hhigh, hcons]
    rw [hcons] at ih
    exact ih hrest

theorem isSome_digitValue?_of_read? {cs : List Char} (h : read? base cs = some n) {c : Char} (hc : c ∈ cs) :
    (digitValue? base c).isSome = true := by
  rw [read?] at h
  split at h
  · cases h
  · obtain ⟨ds, hread, -⟩ := Option.map_eq_some_iff.mp h
    exact Text.isSome_of_mapM hread hc

theorem eq_plus_or_isSome_of_readUnsigned? {cs : List Char} (h : readUnsigned? bound cs = some n) {c : Char} (hc : c ∈ cs) :
    c = '+' ∨ (digitValue? 10 c).isSome = true := by
  have hread := (Option.filter_eq_some_iff.mp h).1
  split at hread
  · exact (List.mem_cons.mp hc).imp_right (isSome_digitValue?_of_read? hread)
  · exact .inr (isSome_digitValue?_of_read? hread hc)

/-- A number below the bound is read as it was written, which is without a sign. -/
theorem readUnsigned?_render (h : n < bound) : readUnsigned? bound (render 10 n) = some n := by
  have hread : read? 10 (render 10 n) = some n := read?_render (by decide) (by decide) n
  have hdigit : ∀ d < 10, digit d ≠ '+' := by decide
  unfold readUnsigned?
  dsimp only
  split
  · rename_i rest hsign
    obtain ⟨d, hd, hplus⟩ := mem_render (by decide) (hsign ▸ List.mem_cons_self : '+' ∈ render 10 n)
    exact absurd hplus.symm (hdigit d hd)
  · rw [hread]
    exact Option.filter_some_pos (decide_eq_true h)

/-- The last digit by position is what is left, and the others are those of the number without it. -/
theorem positions_succ (base count n : Nat) :
    (List.range (count + 1)).map (fun i => n / base ^ (count + 1 - 1 - i) % base) =
      (List.range count).map (fun i => n / base / base ^ (count - 1 - i) % base) ++ [n % base] := by
  have hhigher : (List.range count).map (fun i => n / base ^ (count + 1 - 1 - i) % base) =
      (List.range count).map fun i => n / base / base ^ (count - 1 - i) % base := by
    refine List.map_congr_left fun i hi => ?_
    have hplace : count + 1 - 1 - i = count - 1 - i + 1 := by
      have := List.mem_range.mp hi
      omega
    rw [Nat.div_div_eq_div_mul, hplace, Nat.pow_succ, Nat.mul_comm]
  have hlowest : n / base ^ (count + 1 - 1 - count) % base = n % base := by
    rw [Nat.add_sub_cancel, Nat.sub_self, Nat.pow_zero, Nat.div_one]
  rw [List.range_succ, List.map_append, hhigher, List.map_singleton, hlowest]

/-- The digits of a number by position, down from one place, stand for what the number is below that place. -/
theorem ofDigits_positions (base count n : Nat) :
    ofDigits base ((List.range count).map fun i => n / base ^ (count - 1 - i) % base) = n % base ^ count := by
  induction count generalizing n with
  | zero => simp [ofDigits, Nat.mod_one]
  | succ count ih =>
    rw [positions_succ, ofDigits_concat, ih, Nat.pow_succ, Nat.mul_comm (base ^ count), Nat.mod_mul, Nat.mul_comm base,
      Nat.add_comm]

/-- Each digit in the base of a square is two digits by position. -/
theorem flatMap_positions {square : Nat} (h : base * base = square) (count n : Nat) :
    ((List.range count).map fun i => n / square ^ (count - 1 - i) % square).flatMap (fun d => [d / base, d % base]) =
      (List.range (2 * count)).map fun i => n / base ^ (2 * count - 1 - i) % base := by
  subst h
  induction count generalizing n with
  | zero => rfl
  | succ count ih =>
    have hsize : 2 * (count + 1) = 2 * count + 1 + 1 := by omega
    rw [positions_succ, List.flatMap_append, ih, hsize, positions_succ, positions_succ, Nat.div_div_eq_div_mul,
      List.append_assoc]
    simp [Nat.mod_mul_right_div_self]

end AssetGraph.Numeral

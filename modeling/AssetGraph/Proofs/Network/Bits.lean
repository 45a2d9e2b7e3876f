import AssetGraph.Network.Covering
import Mathlib.Algebra.Group.Nat.Defs
import Mathlib.Tactic.Common

/-!
# Networks bit by bit

An address lies in a network when it shares its first bits, and then it lies between its first and its last address.
Networks that hold one address lie in one another. The network that covers a range is the smallest of those that hold both
ends.
-/
namespace AssetGraph

namespace Address

variable {a b : Address} {width length shorter i : Nat}

theorem width_le (a : Address) : a.width ≤ 128 := by
  cases a with
  | v4 word => exact (by decide : 32 ≤ 128)
  | v6 word => exact Nat.le_refl 128

theorem width_eq_of_isV4_eq (h : a.isV4 = b.isV4) : a.width = b.width := by
  cases a <;> cases b <;> first | rfl | cases h

theorem getLsbD_fullMask (hw : width ≤ 128) : (fullMask width).getLsbD i = decide (i < width) := by
  unfold fullMask
  split
  · rename_i heq
    rw [BitVec.getLsbD_allOnes, heq]
  · rename_i hne
    have hlt : 2 ^ width < 2 ^ 128 := Nat.pow_lt_pow_right (by omega) (by omega)
    have hone : 1 ≤ 2 ^ width := Nat.one_le_two_pow
    have hpow : (((1 <<< width : Nat) : BitVec 128)).toNat = 2 ^ width := by
      rw [BitVec.natCast_eq_ofNat, BitVec.toNat_ofNat, Nat.one_shiftLeft]
      exact Nat.mod_eq_of_lt hlt
    have hmask : (((1 <<< width : Nat) : BitVec 128) - 1).toNat = 2 ^ width - 1 := by
      rw [BitVec.toNat_sub_of_le (by rw [BitVec.le_def, hpow]; exact hone), hpow]
      rfl
    rw [BitVec.getLsbD, hmask, Nat.testBit_two_pow_sub_one]

/-- Exactly the first `length` of the low `width` bits are set. -/
theorem getLsbD_prefixMask (hw : width ≤ 128) :
    (prefixMask width length).getLsbD i = (decide (width - length ≤ i) && decide (i < width)) := by
  unfold prefixMask
  split
  · rename_i hzero
    by_cases hi : i < width <;> simp [hzero, hi]
  · rw [BitVec.getLsbD_and, getLsbD_fullMask hw, BitVec.getLsbD_shiftLeft, BitVec.getLsbD_allOnes]
    by_cases hi : i < width
    · by_cases hlow : i < width - length
      · simp [hi, hlow, Nat.not_le.mpr hlow]
      · simp [hi, hlow, Nat.not_lt.mp hlow]
        omega
    · simp [hi]

theorem getLsbD_toWord_of_le (h : a.width ≤ i) : a.toWord.getLsbD i = false := by
  cases a with
  | v4 word => simp [toWord, BitVec.getLsbD_of_ge word i h]
  | v6 word => exact BitVec.getLsbD_of_ge word i h

theorem getLsbD_toWord_ofWord (a : Address) (word : BitVec 128) :
    (ofWord a word).toWord.getLsbD i = (word.getLsbD i && decide (i < a.width)) := by
  cases a with
  | v4 w =>
    simp only [ofWord, toWord, width, BitVec.getLsbD_setWidth]
    by_cases hi : i < 32
    · simp [hi, show i < 128 by omega]
    · simp [hi]
  | v6 w =>
    simp only [ofWord, toWord, width]
    by_cases hi : i < 128
    · simp [hi]
    · simp [hi, BitVec.getLsbD_of_ge word i (Nat.not_lt.mp hi)]

theorem ext_getLsbD (hfamily : a.isV4 = b.isV4) (h : ∀ i, a.toWord.getLsbD i = b.toWord.getLsbD i) : a = b := by
  have hword : a.toWord = b.toWord := BitVec.eq_of_getLsbD_eq fun i _ => h i
  cases a with
  | v4 x =>
    cases b with
    | v4 y =>
      have hcut := congrArg (BitVec.setWidth 32) hword
      simpa [toWord] using hcut
    | v6 y => cases hfamily
  | v6 x =>
    cases b with
    | v4 y => cases hfamily
    | v6 y => exact congrArg v6 hword

theorem getLsbD_toWord_mask :
    (a.mask length).toWord.getLsbD i = (a.toWord.getLsbD i && decide (a.width - length ≤ i)) := by
  rw [mask, getLsbD_toWord_ofWord, BitVec.getLsbD_and, getLsbD_prefixMask a.width_le]
  by_cases hi : i < a.width
  · simp [hi]
  · simp [hi, getLsbD_toWord_of_le (Nat.not_lt.mp hi)]

theorem mask_eq_mask_iff (hfamily : a.isV4 = b.isV4) :
    a.mask length = b.mask length ↔ ∀ i, a.width - length ≤ i → a.toWord.getLsbD i = b.toWord.getLsbD i := by
  have hwidth := width_eq_of_isV4_eq hfamily
  constructor
  · intro h i hi
    have hbit := congrArg (fun c => c.toWord.getLsbD i) h
    simp only [getLsbD_toWord_mask, ← hwidth, hi, decide_true, Bool.and_true] at hbit
    exact hbit
  · intro h
    apply ext_getLsbD (by simp [hfamily])
    intro i
    rw [getLsbD_toWord_mask, getLsbD_toWord_mask, ← hwidth]
    by_cases hi : a.width - length ≤ i
    · rw [h i hi]
    · simp [hi]

theorem isV4_eq_of_mask_eq (h : a.mask length = b.mask shorter) : a.isV4 = b.isV4 := by
  have hfamily := congrArg isV4 h
  simpa using hfamily

theorem mask_eq_mask_of_le (h : a.mask length = b.mask length) (hshorter : shorter ≤ length) :
    a.mask shorter = b.mask shorter := by
  have hfamily := isV4_eq_of_mask_eq h
  rw [mask_eq_mask_iff hfamily] at h ⊢
  intro i hi
  exact h i (by omega)

theorem mask_eq_mask_iff_div (hfamily : a.isV4 = b.isV4) :
    a.mask length = b.mask length ↔
      a.toWord.toNat / 2 ^ (a.width - length) = b.toWord.toNat / 2 ^ (a.width - length) := by
  rw [mask_eq_mask_iff hfamily, ← Nat.shiftRight_eq_div_pow, ← Nat.shiftRight_eq_div_pow]
  constructor
  · intro h
    apply Nat.eq_of_testBit_eq
    intro i
    rw [Nat.testBit_shiftRight, Nat.testBit_shiftRight]
    exact h _ (Nat.le_add_right _ _)
  · intro h i hi
    have hbit := congrArg (Nat.testBit · (i - (a.width - length))) h
    simp only [Nat.testBit_shiftRight, Nat.add_sub_cancel' hi] at hbit
    exact hbit

/-- Whether an address is of the family of both ends of a range and lies between them. -/
structure IsBetween (a start stop : Address) : Prop where
  family : a.isV4 = start.isV4
  first : start.toWord ≤ a.toWord
  last : a.toWord ≤ stop.toWord

/-- The bits that both ends share are shared by all addresses between them. -/
theorem IsBetween.mask_eq {start stop : Address} (h : a.IsBetween start stop)
    (hshared : start.mask length = stop.mask length) : a.mask length = start.mask length := by
  have hends := (mask_eq_mask_iff_div (isV4_eq_of_mask_eq hshared)).mp hshared
  have hlower := Nat.div_le_div_right (c := 2 ^ (start.width - length)) (BitVec.le_def.mp h.first)
  have hupper := Nat.div_le_div_right (c := 2 ^ (start.width - length)) (BitVec.le_def.mp h.last)
  exact ((mask_eq_mask_iff_div h.family.symm).mpr (by omega)).symm

def mapped (word : BitVec 32) : Address := .v6 (0xFFFF#96 ++ word)

theorem unmap_mapped (word : BitVec 32) : (mapped word).unmap = .v4 word := by
  simp only [mapped, unmap]
  rw [if_pos BitVec.extractLsb'_append_eq_left, BitVec.setWidth_append_eq_right]

/-- An address that is not IPv4 in disguise does not become so by clearing bits: the disguise needs the bits that would
have to be kept for it. -/
theorem unmap_mask (h : a.unmap = a) (length : Nat) : (a.mask length).unmap = a.mask length := by
  cases a with
  | v4 word => rfl
  | v6 word =>
    let cut : BitVec 128 := word &&& prefixMask 128 length
    have hbit : ∀ i, cut.getLsbD i = (word.getLsbD i && decide (128 - length ≤ i)) := fun i =>
      getLsbD_toWord_mask (a := v6 word)
    change (if cut.extractLsb' 32 96 = 0xFFFF#96 then v4 (cut.setWidth 32) else v6 cut) = v6 cut
    rw [if_neg]
    intro hmapped
    have hhigh : ∀ i, i < 96 → cut.getLsbD (32 + i) = (0xFFFF#96).getLsbD i := fun i hi => by
      rw [← hmapped, BitVec.getLsbD_extractLsb', decide_eq_true hi, Bool.true_and]
    have hlength : 128 - length ≤ 32 := by
      have hone : cut.getLsbD 32 = true := hhigh 0 (by decide)
      rw [hbit, Bool.and_eq_true, decide_eq_true_eq] at hone
      exact hone.2
    have hword : word.extractLsb' 32 96 = 0xFFFF#96 := by
      apply BitVec.eq_of_getLsbD_eq
      intro i hi
      rw [← hhigh i hi, hbit, BitVec.getLsbD_extractLsb', decide_eq_true hi, Bool.true_and,
        decide_eq_true (by omega : 128 - length ≤ 32 + i), Bool.and_true]
    simp [unmap, hword] at h

theorem xor_lt_two_pow_iff {x y : BitVec 128} {k : Nat} :
    (x ^^^ y).toNat < 2 ^ k ↔ ∀ i, k ≤ i → x.getLsbD i = y.getLsbD i := by
  have hbit : ∀ i, (x ^^^ y).toNat.testBit i = (x.getLsbD i ^^ y.getLsbD i) := fun i => BitVec.getLsbD_xor
  constructor
  · intro hlt i hi
    have hclear : (x ^^^ y).toNat.testBit i = false :=
      Nat.testBit_lt_two_pow (Nat.lt_of_lt_of_le hlt (Nat.pow_le_pow_right (by omega) hi))
    rw [hbit] at hclear
    simpa using hclear
  · intro h
    apply Nat.lt_pow_two_of_testBit
    intro i hi
    rw [hbit, h i hi, Bool.xor_self]

theorem commonBits_le (width : Nat) (x y : BitVec 128) : commonBits width x y ≤ width := by
  unfold commonBits
  dsimp only
  split <;> omega

theorem le_commonBits_iff {x y : BitVec 128} (hhigh : ∀ i, width ≤ i → x.getLsbD i = y.getLsbD i)
    (hl : length ≤ width) :
    length ≤ commonBits width x y ↔ ∀ i, width - length ≤ i → x.getLsbD i = y.getLsbD i := by
  rw [← xor_lt_two_pow_iff]
  unfold commonBits
  dsimp only
  split
  · rename_i hzero
    simp only [hzero, hl, true_iff]
    exact Nat.two_pow_pos _
  · rename_i hne
    have hfits : (x ^^^ y).toNat.log2 < width := (Nat.log2_lt hne).mpr (xor_lt_two_pow_iff.mpr hhigh)
    rw [← Nat.log2_lt hne]
    omega

/-- The length that two addresses share is the greatest at which their masks agree. -/
theorem commonLength?_spec {n : Nat} (h : a.commonLength? b = some n) :
    a.isV4 = b.isV4 ∧ n ≤ a.width ∧ ∀ length, length ≤ a.width → (length ≤ n ↔ a.mask length = b.mask length) := by
  have hspec : ∀ a b : Address, a.isV4 = b.isV4 → ∀ length, length ≤ a.width →
      (length ≤ commonBits a.width a.toWord b.toWord ↔ a.mask length = b.mask length) := by
    intro a b hfamily length hl
    have hwidth := width_eq_of_isV4_eq hfamily
    rw [mask_eq_mask_iff hfamily]
    apply le_commonBits_iff _ hl
    intro i hi
    rw [getLsbD_toWord_of_le hi, getLsbD_toWord_of_le (hwidth ▸ hi)]
  cases a with
  | v4 x =>
    cases b with
    | v4 y =>
      cases h
      exact ⟨rfl, commonBits_le _ _ _, hspec (v4 x) (v4 y) rfl⟩
    | v6 y => cases h
  | v6 x =>
    cases b with
    | v4 y => cases h
    | v6 y =>
      cases h
      exact ⟨rfl, commonBits_le _ _ _, hspec (v6 x) (v6 y) rfl⟩

end Address

namespace Network

variable {n : Network} {a : Address} {i : Nat}

theorem isV4_last (n : Network) : n.last.isV4 = n.base.isV4 := Address.isV4_ofWord ..

theorem width_last (n : Network) : n.last.width = n.base.width := Address.width_ofWord ..

theorem getLsbD_toWord_last :
    n.last.toWord.getLsbD i = (n.base.toWord.getLsbD i || decide (i < n.base.width - n.length)) := by
  simp only [last]
  rw [Address.getLsbD_toWord_ofWord, BitVec.getLsbD_or, BitVec.getLsbD_and, BitVec.getLsbD_not,
    Address.getLsbD_prefixMask n.base.width_le, Address.getLsbD_fullMask n.base.width_le]
  have hwidth := n.base.width_le
  by_cases hi : i < n.base.width
  · have hword : i < 128 := by omega
    by_cases hhost : i < n.base.width - n.length
    · have hsum : i + n.length < n.base.width := by omega
      simp [hi, hword, hhost, hsum]
    · simp [hi, hhost, Nat.not_lt.mp hhost]
  · simp [hi, Address.getLsbD_toWord_of_le (Nat.not_lt.mp hi)]
    omega

theorem mask_last (n : Network) : n.last.mask n.length = n.base := by
  refine Eq.trans ((Address.mask_eq_mask_iff n.isV4_last).mpr ?_) n.masked
  intro i hi
  rw [width_last] at hi
  rw [getLsbD_toWord_last]
  simp [Nat.not_lt.mpr hi]

theorem between_of_mask (h : a.mask n.length = n.base) :
    n.base.toWord ≤ a.toWord ∧ a.toWord ≤ n.last.toWord := by
  have hwidth : n.base.width = a.width := by
    rw [← h, Address.width_mask]
  have hbase : ∀ i, n.base.toWord.getLsbD i = (a.toWord.getLsbD i && decide (a.width - n.length ≤ i)) := by
    intro i
    rw [← Address.getLsbD_toWord_mask, h]
  have hlower : n.base.toWord = n.base.toWord &&& a.toWord := by
    apply BitVec.eq_of_getLsbD_eq
    intro i _
    rw [BitVec.getLsbD_and, hbase]
    cases a.toWord.getLsbD i <;> simp
  have hupper : a.toWord = a.toWord &&& n.last.toWord := by
    apply BitVec.eq_of_getLsbD_eq
    intro i _
    rw [BitVec.getLsbD_and, getLsbD_toWord_last, hbase, hwidth]
    by_cases hi : a.width - n.length ≤ i
    · cases a.toWord.getLsbD i <;> simp [hi]
    · cases a.toWord.getLsbD i <;> simp [Nat.not_le.mp hi]
  constructor
  · rw [hlower, BitVec.le_def, BitVec.toNat_and]
    exact Nat.and_le_right
  · rw [hupper, BitVec.le_def, BitVec.toNat_and]
    exact Nat.and_le_right

theorem getLsbD_toWord_base (h : i < n.base.width - n.length) : n.base.toWord.getLsbD i = false := by
  rw [← n.masked, Address.getLsbD_toWord_mask, decide_eq_false (Nat.not_le.mpr h), Bool.and_false]

/-- The first and the last address of a network share no more bits than the network has: the highest of the others is set in the last
address and clear in the first. -/
theorem length_le_of_mask_last {length : Nat} (h : n.last.mask length = n.base.mask length)
    (hl : length ≤ n.base.width) : length ≤ n.length := by
  by_contra hmore
  have hwidth := n.width_last
  have hbit := (Address.mask_eq_mask_iff n.isV4_last).mp h (n.base.width - n.length - 1) (by omega)
  rw [getLsbD_toWord_last, getLsbD_toWord_base (by omega), decide_eq_true (by omega)] at hbit
  cases hbit

theorem contains_iff : n.contains a = true ↔ a.unmap.mask n.length = n.base := by
  constructor
  · intro h
    simp only [contains, Bool.and_eq_true, beq_iff_eq] at h
    exact h.2
  · intro h
    have hfamily : n.base.isV4 = a.unmap.isV4 := by rw [← h, Address.isV4_mask]
    simp only [contains, hfamily, h, beq_self_eq_true, Bool.and_self]

theorem containsNetwork_iff {m : Network} :
    m.containsNetwork n = true ↔ m.length ≤ n.length ∧ m.contains n.base = true := by
  simp [containsNetwork]

theorem contains_of_isBetween {start stop : Address} (hstart : start.mask n.length = n.base)
    (hstop : stop.mask n.length = n.base) (h : a.unmap.IsBetween start stop) : n.contains a = true :=
  contains_iff.mpr ((h.mask_eq (hstart.trans hstop.symm)).trans hstart)

/-- A network that holds two addresses holds every network between them that is not one of IPv4-mapped addresses. -/
theorem containsNetwork_of_isBetween {start stop : Address} {m : Network} (hstart : start.mask n.length = n.base)
    (hstop : stop.mask n.length = n.base) (hplain : m.base.unmap = m.base) (hfirst : m.base.IsBetween start stop)
    (hlast : m.last.IsBetween start stop) : n.containsNetwork m = true := by
  have hshared : start.mask n.length = stop.mask n.length := hstart.trans hstop.symm
  have hends : m.last.mask n.length = m.base.mask n.length :=
    (hlast.mask_eq hshared).trans (hfirst.mask_eq hshared).symm
  have hwidth : n.length ≤ m.base.width := by
    rw [← Address.width_mask m.base n.length, hfirst.mask_eq hshared, hstart]
    exact n.length_le
  have hlength : n.length ≤ m.length := length_le_of_mask_last hends hwidth
  exact containsNetwork_iff.mpr ⟨hlength, contains_of_isBetween hstart hstop (hplain.symm ▸ hfirst)⟩

theorem isV4_eq_of_contains (h : n.contains a = true) : n.isV4 = a.unmap.isV4 := by
  rw [isV4, ← contains_iff.mp h, Address.isV4_mask]

theorem unmap_base_of_contains (h : n.contains a = true) : n.base.unmap = n.base := by
  rw [← contains_iff.mp h]
  exact Address.unmap_mask a.unmap_unmap n.length

/-- Of two networks that hold one address the longer lies in the other. -/
theorem containsNetwork_of_contains {m : Network} (hm : m.contains a = true) (hn : n.contains a = true)
    (hlength : m.length ≤ n.length) : m.containsNetwork n = true := by
  have hbase : m.contains n.base = true := by
    rw [contains_iff, unmap_base_of_contains hn, ← contains_iff.mp hn, ← contains_iff.mp hm]
    exact Address.mask_eq_mask_of_le (Address.mask_mask _ _) hlength
  exact containsNetwork_iff.mpr ⟨hlength, hbase⟩

theorem eq_of_contains {m : Network} (hm : m.contains a = true) (hn : n.contains a = true)
    (hlength : m.length = n.length) : m = n := by
  obtain ⟨base, length, _, _⟩ := m
  obtain ⟨base', length', _, _⟩ := n
  obtain rfl : length = length' := hlength
  obtain rfl : base = base' := (contains_iff.mp hm).symm.trans (contains_iff.mp hn)
  rfl

theorem contains_of_containsNetwork {m : Network} (hm : m.containsNetwork n = true) (hn : n.contains a = true) :
    m.contains a = true := by
  obtain ⟨hlength, hbase⟩ := containsNetwork_iff.mp hm
  rw [contains_iff, unmap_base_of_contains hn, ← contains_iff.mp hn] at hbase
  rw [contains_iff, ← hbase]
  exact (Address.mask_eq_mask_of_le (Address.mask_mask _ _) hlength).symm

theorem ne_empty_of_readEnd {text : String} (h : readEnd text = .ok a) : text ≠ "" := by
  rintro rfl
  have hfails : (readEnd "").isOk = false := by decide
  rw [h] at hfails
  cases hfails

/-- The network that covers a range holds both ends, and every network that holds both holds it. -/
theorem covering_spec {first last : String} (h : covering first last = .ok n) :
    ∃ start stop, readEnd first = .ok start ∧ readEnd last = .ok stop ∧ start.isV4 = stop.isV4 ∧
      start.mask n.length = n.base ∧ stop.mask n.length = n.base ∧
      ∀ length, length ≤ start.width → start.mask length = stop.mask length → length ≤ n.length := by
  unfold covering at h
  cases hstart : readEnd first with
  | error e =>
    rw [hstart] at h
    cases h
  | ok start =>
    cases hstop : readEnd last with
    | error e =>
      rw [hstart, hstop] at h
      cases h
    | ok stop =>
      cases hcommon : start.commonLength? stop with
      | none =>
        simp only [hstart, hstop, Bind.bind, Except.bind, hcommon] at h
        cases h
      | some length =>
        simp only [hstart, hstop, Bind.bind, Except.bind, hcommon] at h
        obtain ⟨hfamily, hle, hgreatest⟩ := Address.commonLength?_spec hcommon
        simp only [make, of?, hle, dif_pos, Except.ok.injEq] at h
        subst h
        have hboth := (hgreatest length hle).mp (Nat.le_refl _)
        exact ⟨start, stop, rfl, rfl, hfamily, rfl, hboth.symm,
          fun shorter hshorter hsame => (hgreatest shorter hshorter).mpr hsame⟩

theorem exists_covering {first last : String} {start stop : Address} (hstart : readEnd first = .ok start)
    (hstop : readEnd last = .ok stop) (hfamily : start.isV4 = stop.isV4) :
    ∃ n, covering first last = .ok n ∧ start.mask n.length = n.base ∧ stop.mask n.length = n.base := by
  have hmake : ∀ length, start.commonLength? stop = some length → ∃ n, make start length = .ok n := by
    intro length hcommon
    obtain ⟨-, hle, -⟩ := Address.commonLength?_spec hcommon
    simp only [make, of?, hle, dif_pos]
    exact ⟨_, rfl⟩
  have hcovers : ∃ n, covering first last = .ok n := by
    simp only [covering, hstart, hstop, Bind.bind, Except.bind]
    cases start with
    | v4 x =>
      cases stop with
      | v4 y => exact hmake _ rfl
      | v6 y => cases hfamily
    | v6 x =>
      cases stop with
      | v4 y => cases hfamily
      | v6 y => exact hmake _ rfl
  obtain ⟨n, hn⟩ := hcovers
  obtain ⟨start', stop', hstart', hstop', -, hfirst, hlast, -⟩ := covering_spec hn
  rw [hstart, Except.ok.injEq] at hstart'
  rw [hstop, Except.ok.injEq] at hstop'
  exact ⟨n, hn, hstart' ▸ hfirst, hstop' ▸ hlast⟩

end Network
end AssetGraph

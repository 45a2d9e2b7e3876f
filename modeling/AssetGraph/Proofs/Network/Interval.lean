import AssetGraph.Proofs.Network.Bits
import Mathlib.Data.Set.Card
import Mathlib.Order.Interval.Finset.Nat

/-!
# Networks as intervals

A network is the block of addresses of its family from its first to its last one: their number is a power of two, and
the block starts at a multiple of it. Two networks are the same when their blocks are. An address lies in a network when
it lies in the block, unless it is an IPv4 one written as IPv6, which lies where the IPv4 address lies that it carries.
-/
namespace AssetGraph

namespace Address

variable {a b : Address} {length : Nat}

def IsMapped (a : Address) : Prop := ∃ word, a = mapped word

/-- A bit of an address, counted from the highest. -/
def leadingBit (a : Address) (i : Nat) : Bool := a.toWord.getLsbD (a.width - 1 - i)

theorem unmap_eq_self (h : ¬a.IsMapped) : a.unmap = a := by
  cases a with
  | v4 word => rfl
  | v6 word =>
    have hhigh : word.extractLsb' 32 96 ≠ 0xFFFF#96 := by
      intro hhigh
      refine h ⟨word.setWidth 32, congrArg v6 ?_⟩
      rw [← hhigh, BitVec.setWidth_eq_extractLsb' (by decide)]
      exact (@BitVec.extractLsb'_append_extractLsb' 96 32 word).symm
    exact if_neg hhigh

theorem isMapped_iff : a.IsMapped ↔ a.unmap ≠ a := by
  constructor
  · rintro ⟨word, rfl⟩
    rw [unmap_mapped]
    exact nofun
  · intro h
    by_contra hplain
    exact h (unmap_eq_self hplain)

instance : Decidable a.IsMapped := decidable_of_iff _ isMapped_iff.symm

theorem toWord_lt (a : Address) : a.toWord.toNat < 2 ^ a.width := by
  cases a with
  | v4 word =>
    have hword : (word.setWidth 128).toNat = word.toNat := BitVec.toNat_setWidth_of_le (by decide)
    exact hword ▸ word.isLt
  | v6 word => exact word.isLt

theorem toNat_toWord_ofWord {word : BitVec 128} (h : word.toNat < 2 ^ a.width) :
    (ofWord a word).toWord.toNat = word.toNat := by
  cases a with
  | v4 _ =>
    simp only [ofWord, toWord, BitVec.toNat_setWidth]
    rw [Nat.mod_eq_of_lt (show word.toNat < 2 ^ 32 from h), Nat.mod_eq_of_lt word.isLt]
  | v6 _ => rfl

theorem eq_of_toNat_eq (hfamily : a.isV4 = b.isV4) (h : a.toWord.toNat = b.toWord.toNat) : a = b :=
  ext_getLsbD hfamily fun i => congrArg (BitVec.getLsbD · i) (BitVec.eq_of_toNat_eq h)

theorem mask_eq_mask_iff_leadingBit (hfamily : a.isV4 = b.isV4) (hl : length ≤ a.width) :
    a.mask length = b.mask length ↔ ∀ i < length, a.leadingBit i = b.leadingBit i := by
  have hwidth := width_eq_of_isV4_eq hfamily
  rw [mask_eq_mask_iff hfamily]
  constructor
  · intro h i hi
    rw [leadingBit, leadingBit, ← hwidth]
    exact h _ (by omega)
  · intro h i hi
    rcases Nat.lt_or_ge i a.width with hin | hout
    · have hbit := h (a.width - 1 - i) (by omega)
      rw [leadingBit, leadingBit, ← hwidth, show a.width - 1 - (a.width - 1 - i) = i by omega] at hbit
      exact hbit
    · rw [getLsbD_toWord_of_le hout, getLsbD_toWord_of_le (hwidth ▸ hout)]

end Address

namespace Network

variable {m n : Network} {a b : Address} {length : Nat}

/-- The addresses of a network's family from its first to its last one. -/
def interval (n : Network) : Set Address := {a | a.IsBetween n.base n.last}

theorem dvd_base (n : Network) : 2 ^ (n.base.width - n.length) ∣ n.base.toWord.toNat := by
  apply Nat.dvd_of_mod_eq_zero
  apply Nat.eq_of_testBit_eq
  intro i
  rw [Nat.testBit_mod_two_pow, Nat.zero_testBit]
  rcases Nat.lt_or_ge i (n.base.width - n.length) with hlow | hhigh
  · have hclear : n.base.toWord.toNat.testBit i = false := getLsbD_toWord_base hlow
    rw [hclear, Bool.and_false]
  · rw [decide_eq_false (Nat.not_lt.mpr hhigh), Bool.false_and]

theorem toNat_last (n : Network) :
    n.last.toWord.toNat = n.base.toWord.toNat + (2 ^ (n.base.width - n.length) - 1) := by
  obtain ⟨block, hblock⟩ := n.dvd_base
  have hpos := Nat.two_pow_pos (n.base.width - n.length)
  apply Nat.eq_of_testBit_eq
  intro i
  have hbit : n.last.toWord.toNat.testBit i =
      (n.base.toWord.toNat.testBit i || decide (i < n.base.width - n.length)) := getLsbD_toWord_last
  rw [hbit, hblock, Nat.testBit_two_pow_mul_add _ (by omega), Nat.testBit_two_pow_mul]
  split
  · rename_i hlow
    rw [Nat.testBit_two_pow_sub_one, decide_eq_true hlow, Bool.or_true]
  · rename_i hhigh
    rw [decide_eq_true (Nat.not_lt.mp hhigh), decide_eq_false hhigh, Bool.true_and, Bool.or_false]

theorem contains_iff_mem_interval : n.contains a = true ↔ a.unmap ∈ n.interval := by
  constructor
  · intro h
    obtain ⟨hfirst, hlast⟩ := between_of_mask (contains_iff.mp h)
    exact ⟨(isV4_eq_of_contains h).symm, hfirst, hlast⟩
  · exact contains_of_isBetween n.masked n.mask_last

/-- The numbers of the addresses of a network are those from its first to its last. -/
theorem image_interval (n : Network) :
    (fun a : Address => a.toWord.toNat) '' n.interval = Set.Icc n.base.toWord.toNat n.last.toWord.toNat := by
  ext number
  constructor
  · rintro ⟨a, ha, rfl⟩
    exact ⟨BitVec.le_def.mp ha.first, BitVec.le_def.mp ha.last⟩
  · rintro ⟨hfirst, hlast⟩
    have hfits : number < 2 ^ n.base.width := by
      have hlt := n.last.toWord_lt
      rw [width_last] at hlt
      omega
    have hword : (BitVec.ofNat 128 number).toNat = number := by
      rw [BitVec.toNat_ofNat]
      exact Nat.mod_eq_of_lt (Nat.lt_of_lt_of_le hfits (Nat.pow_le_pow_right (by decide) n.base.width_le))
    have hnumber : (Address.ofWord n.base (BitVec.ofNat 128 number)).toWord.toNat = number := by
      rw [Address.toNat_toWord_ofWord (hword.symm ▸ hfits), hword]
    refine ⟨Address.ofWord n.base (BitVec.ofNat 128 number), ⟨Address.isV4_ofWord _ _, ?_, ?_⟩, hnumber⟩
    · exact BitVec.le_def.mpr (hnumber.symm ▸ hfirst)
    · exact BitVec.le_def.mpr (hnumber.symm ▸ hlast)

theorem ncard_interval (n : Network) : n.interval.ncard = 2 ^ (n.base.width - n.length) := by
  have hinjective : Set.InjOn (fun a : Address => a.toWord.toNat) n.interval := fun a ha b hb h =>
    Address.eq_of_toNat_eq (ha.family.trans hb.family.symm) h
  have hpos := Nat.two_pow_pos (n.base.width - n.length)
  rw [← hinjective.ncard_image, image_interval, ← Finset.coe_Icc, Set.ncard_coe_finset, Nat.card_Icc,
    toNat_last]
  omega

theorem base_mem_interval (n : Network) : n.base ∈ n.interval := by
  refine ⟨rfl, Nat.le_refl _, BitVec.le_def.mpr ?_⟩
  rw [toNat_last]
  exact Nat.le_add_right _ _

theorem last_mem_interval (n : Network) : n.last ∈ n.interval := by
  refine ⟨n.isV4_last, BitVec.le_def.mpr ?_, Nat.le_refl _⟩
  rw [toNat_last]
  exact Nat.le_add_right _ _

theorem mask_of_mem_interval (h : a ∈ n.interval) : a.mask n.length = n.base :=
  (h.mask_eq (n.masked.trans n.mask_last.symm)).trans n.masked

theorem mem_interval_of_mask (h : a.mask n.length = n.base) : a ∈ n.interval := by
  obtain ⟨hfirst, hlast⟩ := between_of_mask h
  refine ⟨?_, hfirst, hlast⟩
  rw [← h, Address.isV4_mask]

theorem interval_subset (hlength : m.length ≤ n.length) (hm : a ∈ m.interval) (hn : a ∈ n.interval) :
    n.interval ⊆ m.interval := by
  intro b hb
  have hsame : b.mask n.length = a.mask n.length := (mask_of_mem_interval hb).trans (mask_of_mem_interval hn).symm
  exact mem_interval_of_mask ((Address.mask_eq_mask_of_le hsame hlength).trans (mask_of_mem_interval hm))

/-- Two networks of one length with an address in common are the same. -/
theorem eq_of_mem_interval (hlength : m.length = n.length) (hm : a ∈ m.interval) (hn : a ∈ n.interval) : m = n := by
  have hbase : m.base = n.base := by
    rw [← mask_of_mem_interval hm, ← mask_of_mem_interval hn, hlength]
  obtain ⟨base, length, _, _⟩ := m
  obtain ⟨base', length', _, _⟩ := n
  obtain rfl : base = base' := hbase
  obtain rfl : length = length' := hlength
  rfl

theorem eq_of_interval_eq (h : m.interval = n.interval) : m = n := by
  have hm : m.base ∈ n.interval := h ▸ m.base_mem_interval
  have hwidth : m.base.width = n.base.width := Address.width_eq_of_isV4_eq hm.family
  have hcount : 2 ^ (m.base.width - m.length) = 2 ^ (n.base.width - n.length) := by
    rw [← ncard_interval, ← ncard_interval, h]
  have hrest : m.base.width - m.length = n.base.width - n.length := Nat.pow_right_injective (Nat.le_refl 2) hcount
  have hmlength := m.length_le
  have hnlength := n.length_le
  exact eq_of_mem_interval (by omega) m.base_mem_interval hm

theorem contains_eq_false (hfamily : a.isV4 ≠ n.isV4) (hplain : ¬a.IsMapped) : n.contains a = false := by
  rw [← Bool.not_eq_true]
  intro h
  have hsame := isV4_eq_of_contains h
  rw [Address.unmap_eq_self hplain] at hsame
  exact hfamily hsame.symm

theorem interval_host (a : Address) : (host a).interval = {a} := by
  have hlast : (host a).last.toWord.toNat = a.toWord.toNat := by
    rw [toNat_last]
    simp [host]
  ext b
  constructor
  · intro hb
    refine Address.eq_of_toNat_eq hb.family (Nat.le_antisymm ?_ (BitVec.le_def.mp hb.first))
    exact hlast ▸ BitVec.le_def.mp hb.last
  · rintro rfl
    exact (host b).base_mem_interval

theorem exists_of? (h : length ≤ a.width) : ∃ n, of? a length = some n ∧ n.length = length ∧ a ∈ n.interval := by
  rw [of?, dif_pos h]
  exact ⟨_, rfl, rfl, mem_interval_of_mask rfl⟩

theorem of?_eq_of?_iff (hfamily : a.isV4 = b.isV4) (h : length ≤ a.width) :
    of? a length = of? b length ↔ ∀ i < length, a.leadingBit i = b.leadingBit i := by
  have hb : length ≤ b.width := Address.width_eq_of_isV4_eq hfamily ▸ h
  rw [← Address.mask_eq_mask_iff_leadingBit hfamily h, of?, of?, dif_pos h, dif_pos hb, Option.some.injEq, mk.injEq]
  exact and_iff_left rfl

/-- A network is exactly the interval from its first to its last address: an aligned block of a power of two, which holds
what the network contains, IPv4-mapped addresses apart, and which no other network has. -/
theorem exactly_its_interval :
    (∀ n : Network,
      n.interval.ncard = 2 ^ (n.base.width - n.length) ∧
      2 ^ (n.base.width - n.length) ∣ n.base.toWord.toNat ∧
      (∀ a, a.isV4 = n.isV4 → ¬a.IsMapped → (n.contains a = true ↔ a ∈ n.interval)) ∧
      (∀ word, n.contains (.mapped word) = n.contains (.v4 word)) ∧
      ∀ a, a.isV4 ≠ n.isV4 → ¬a.IsMapped → n.contains a = false) ∧
    (∀ m n : Network, m = n ↔ m.isV4 = n.isV4 ∧ m.interval = n.interval) ∧
    (∀ a length, length ≤ a.width → ∃ n, of? a length = some n ∧ n.length = length ∧ a ∈ n.interval) ∧
    (∀ a, (host a).interval = {a}) ∧
    ∀ a b length, a.isV4 = b.isV4 → length ≤ a.width →
      (of? a length = of? b length ↔ ∀ i < length, a.leadingBit i = b.leadingBit i) := by
  refine ⟨fun n => ⟨n.ncard_interval, n.dvd_base, ?_, ?_, fun a => contains_eq_false⟩, fun m n => ?_,
    fun a length => exists_of?, interval_host, fun a b length => of?_eq_of?_iff⟩
  · intro a _ hplain
    rw [contains_iff_mem_interval, Address.unmap_eq_self hplain]
  · intro word
    rw [← contains_unmap, Address.unmap_mapped]
  · constructor
    · rintro rfl
      exact ⟨rfl, rfl⟩
    · exact fun h => eq_of_interval_eq h.2

/-- Two addresses with the same first 24 bits are of one network. Its interval holds both, and no IPv6 address is in it. -/
theorem exactly_its_interval_byte :
    ∃ n : Network, of? (.v4 0xC000024D#32) 24 = some n ∧ of? (.v4 0xC0000280#32) 24 = some n ∧
      n.interval.ncard = 256 ∧ n.contains (.v4 0xC0000280#32) = true ∧ n.contains (.v6 1#128) = false := by
  obtain ⟨hnetwork, -, hexists, -, hsame⟩ := exactly_its_interval
  obtain ⟨n, hn, hlength, hmem⟩ := hexists (.v4 0xC0000280#32) 24 (by decide)
  have hagree : of? (.v4 0xC000024D#32) 24 = of? (.v4 0xC0000280#32) 24 :=
    (hsame _ _ 24 rfl (by decide)).mpr (by decide)
  obtain ⟨hcount, -, hinside, -, hother⟩ := hnetwork n
  have hfamily : (Address.v4 0xC0000280#32).isV4 = n.isV4 := hmem.family
  have hwidth : n.base.width = 32 := Address.width_eq_of_isV4_eq hfamily.symm
  refine ⟨n, hagree.trans hn, hn, ?_, (hinside _ hfamily (by decide)).mpr hmem, hother _ ?_ (by decide)⟩
  · rw [hcount, hwidth, hlength]
    rfl
  · rw [← hfamily]
    decide

end Network
end AssetGraph

import AssetGraph.Proofs.Network.Notation
import Mathlib.Data.Nat.Bitwise

/-!
# The smallest network around a range

Two addresses of one family have a network around them that lies in every other one. Its length is counted octet by octet,
from the highest, up to the first octets that differ. Which of the two comes first does not matter.
-/
namespace AssetGraph

/-- The leading bits that two lists of octets share: eight for each pair at the start that is equal, and of the first that
differ the bits above the highest one in which they do. -/
def sharedBits : List Nat → List Nat → Nat
  | x :: xs, y :: ys => if x = y then 8 + sharedBits xs ys else 7 - (x ^^^ y).log2
  | _, _ => 0

def bitsAbove (width number : Nat) : Nat :=
  if number = 0 then width else width - (number.log2 + 1)

variable {x y u v width : Nat}

theorem bitsAbove_of_lt (more : Nat) (h : u < 2 ^ width) : bitsAbove (width + more) u = more + bitsAbove width u := by
  unfold bitsAbove
  split
  · exact Nat.add_comm width more
  · rename_i hne
    have hlog := (Nat.log2_lt hne).mpr h
    omega

theorem log2_shifted (hx : x ≠ 0) (hu : u < 2 ^ width) : (2 ^ width * x + u).log2 = width + x.log2 := by
  have hlow : 2 ^ width * 2 ^ x.log2 ≤ 2 ^ width * x := Nat.mul_le_mul_left _ (Nat.log2_self_le hx)
  have hhigh : 2 ^ width * (x + 1) ≤ 2 ^ width * 2 ^ (x.log2 + 1) := Nat.mul_le_mul_left _ Nat.lt_log2_self
  have hpos : 2 ^ width * x ≠ 0 := Nat.mul_ne_zero (Nat.two_pow_pos width).ne' hx
  rw [← Nat.pow_add] at hlow hhigh
  rw [Nat.mul_succ, ← Nat.add_assoc] at hhigh
  rw [Nat.log2_eq_iff (by omega)]
  constructor <;> omega

theorem xor_shifted (hu : u < 2 ^ width) (hv : v < 2 ^ width) :
    (2 ^ width * x + u) ^^^ (2 ^ width * y + v) = 2 ^ width * (x ^^^ y) + (u ^^^ v) := by
  have huv : u ^^^ v < 2 ^ width := Nat.xor_lt_two_pow hu hv
  apply Nat.eq_of_testBit_eq
  intro i
  rw [Nat.testBit_xor, Nat.testBit_two_pow_mul_add _ hu, Nat.testBit_two_pow_mul_add _ hv, Nat.testBit_two_pow_mul_add _ huv]
  split
  · rw [Nat.testBit_xor]
  · rw [Nat.testBit_xor]

/-- Counting octet by octet is counting the bits above the highest difference. -/
theorem bitsAbove_ofDigits {xs ys : List Nat} (hlength : xs.length = ys.length) (hx : ∀ x ∈ xs, x < 256)
    (hy : ∀ y ∈ ys, y < 256) :
    bitsAbove (8 * xs.length) (Numeral.ofDigits 256 xs ^^^ Numeral.ofDigits 256 ys) = sharedBits xs ys := by
  have hpower : ∀ count : Nat, 256 ^ count = 2 ^ (8 * count) := fun count => (Nat.pow_mul 2 8 count).symm
  induction xs generalizing ys with
  | nil =>
    cases ys with
    | nil => rfl
    | cons y ys => cases hlength
  | cons x xs ih =>
    cases ys with
    | nil => cases hlength
    | cons y ys =>
      obtain ⟨hx0, hxs⟩ := List.forall_mem_cons.mp hx
      obtain ⟨hy0, hys⟩ := List.forall_mem_cons.mp hy
      have hrest : xs.length = ys.length := Nat.succ.inj hlength
      have hu := Numeral.ofDigits_lt hxs
      have hv := Numeral.ofDigits_lt hys
      rw [← hrest, hpower] at hv
      rw [hpower] at hu
      rw [Numeral.ofDigits_cons, Numeral.ofDigits_cons, ← hrest, hpower, Nat.mul_comm x, Nat.mul_comm y, xor_shifted hu hv,
        List.length_cons, Nat.mul_succ, sharedBits]
      split
      · rename_i heq
        rw [heq, Nat.xor_self, Nat.mul_zero, Nat.zero_add, bitsAbove_of_lt 8 (Nat.xor_lt_two_pow hu hv), ih hrest hxs hys]
      · rename_i hne
        have hdifferent : x ^^^ y ≠ 0 := fun hzero => hne (Nat.xor_eq_zero_iff.mp hzero)
        have hoctet : (x ^^^ y).log2 < 8 := (Nat.log2_lt hdifferent).mpr (Nat.xor_lt_two_pow hx0 hy0)
        have hlog := log2_shifted hdifferent (Nat.xor_lt_two_pow hu hv)
        have hpos : 2 ^ (8 * xs.length) * (x ^^^ y) ≠ 0 := Nat.mul_ne_zero (Nat.two_pow_pos _).ne' hdifferent
        rw [bitsAbove, if_neg (by omega), hlog]
        omega

namespace Address

variable {a b : Address}

theorem commonLength?_eq (hfamily : a.isV4 = b.isV4) : a.commonLength? b = some (sharedBits a.octets b.octets) := by
  have hlength : a.octets.length = b.octets.length := by
    rw [octets_eq, octets_eq, List.length_map, List.length_map, width_eq_of_isV4_eq hfamily]
  have hbits : 8 * a.octets.length = a.width := by
    cases a <;> rfl
  have hcount := bitsAbove_ofDigits hlength (fun _ => lt_of_mem_octets) fun _ => lt_of_mem_octets
  rw [ofDigits_octets, ofDigits_octets, hbits, ← BitVec.toNat_xor] at hcount
  rw [← hcount]
  cases a with
  | v4 x =>
    cases b with
    | v4 y => rfl
    | v6 y => cases hfamily
  | v6 x =>
    cases b with
    | v4 y => cases hfamily
    | v6 y => rfl

end Address

namespace Network

variable {m n : Network} {a b c : Address} {first last : String}

def endOf? (s : String) : Option Address := Address.parse? (String.ofList (Text.trim s.toList))

theorem readEnd_eq_ok_iff : readEnd first = .ok a ↔ endOf? first = some a := by
  rw [readEnd, endOf?]
  split
  · rename_i address haddress
    rw [haddress, Except.ok.injEq, Option.some.injEq]
  · rename_i hnone
    simp [hnone]

theorem readEnd_of_none (h : endOf? first = none) : readEnd first = .error (.invalidAddress first) := by
  rw [endOf?] at h
  rw [readEnd, h]

theorem mem_interval_of_isBetween (ha : a ∈ n.interval) (hb : b ∈ n.interval) (hc : c.IsBetween a b) : c ∈ n.interval :=
  ⟨hc.family.trans ha.family, BitVec.le_trans ha.first hc.first, BitVec.le_trans hc.last hb.last⟩

theorem covering_of_none_left (h : endOf? first = none) (last : String) :
    covering first last = .error (.invalidAddress first) := by
  rw [covering, readEnd_of_none h]
  rfl

theorem covering_of_none_right (ha : endOf? first = some a) (h : endOf? last = none) :
    covering first last = .error (.invalidAddress last) := by
  rw [covering, readEnd_eq_ok_iff.mpr ha, readEnd_of_none h]
  rfl

theorem covering_eq (ha : endOf? first = some a) (hb : endOf? last = some b) (hfamily : a.isV4 = b.isV4) :
    covering first last = make a (sharedBits a.octets b.octets) := by
  simp only [covering, readEnd_eq_ok_iff.mpr ha, readEnd_eq_ok_iff.mpr hb, Bind.bind, Except.bind,
    Address.commonLength?_eq hfamily]

theorem covering_of_mismatch (ha : endOf? first = some a) (hb : endOf? last = some b) (hfamily : a.isV4 ≠ b.isV4) :
    covering first last = .error (.familyMismatch a b) := by
  have hnone : a.commonLength? b = none := by
    cases a <;> cases b <;> first | rfl | exact absurd rfl hfamily
  simp only [covering, readEnd_eq_ok_iff.mpr ha, readEnd_eq_ok_iff.mpr hb, Bind.bind, Except.bind, hnone]

/-- The network around two addresses holds both, and it lies in every other that does. -/
structure IsLeast (n : Network) (a b : Address) : Prop where
  first : a ∈ n.interval
  last : b ∈ n.interval
  least : ∀ m : Network, a ∈ m.interval → b ∈ m.interval → m.length ≤ n.length ∧ n.interval ⊆ m.interval

theorem IsLeast.symm (h : n.IsLeast a b) : n.IsLeast b a :=
  ⟨h.last, h.first, fun m hb ha => h.least m ha hb⟩

theorem IsLeast.unique (hm : m.IsLeast a b) (hn : n.IsLeast a b) : m = n :=
  eq_of_mem_interval (Nat.le_antisymm (hn.least m hm.first hm.last).1 (hm.least n hn.first hn.last).1) hm.first hn.first

/-- Two ends of one family have a least network around them, whose length their octets share. -/
theorem exists_least_covering (ha : endOf? first = some a) (hb : endOf? last = some b) (hfamily : a.isV4 = b.isV4) :
    ∃ n, covering first last = .ok n ∧ n.length = sharedBits a.octets b.octets ∧ n.IsLeast a b := by
  have hstart := readEnd_eq_ok_iff.mpr ha
  have hstop := readEnd_eq_ok_iff.mpr hb
  obtain ⟨n, hn, hfirst, hlast⟩ := exists_covering hstart hstop hfamily
  have hmade := covering_eq ha hb hfamily
  rw [hn] at hmade
  obtain ⟨hlength, -⟩ := make_eq_ok_iff.mp hmade.symm
  refine ⟨n, hn, hlength.symm, mem_interval_of_mask hfirst, mem_interval_of_mask hlast, fun m hma hmb => ?_⟩
  obtain ⟨start, stop, hstart', hstop', -, -, -, hgreatest⟩ := covering_spec hn
  rw [hstart, Except.ok.injEq] at hstart'
  rw [hstop, Except.ok.injEq] at hstop'
  subst hstart' hstop'
  have hwidth : m.length ≤ a.width := Address.width_eq_of_isV4_eq hma.family ▸ m.length_le
  have hlonger := hgreatest m.length hwidth ((mask_of_mem_interval hma).trans (mask_of_mem_interval hmb).symm)
  exact ⟨hlonger, interval_subset hlonger hma (mem_interval_of_mask hfirst)⟩

/-- A range of two ends of one family is covered; otherwise an end is no address, or the families differ. -/
theorem covering_cases (first last : String) :
    (∃ a b n, endOf? first = some a ∧ endOf? last = some b ∧ a.isV4 = b.isV4 ∧ covering first last = .ok n ∧ n.IsLeast a b) ∨
      (∃ text, covering first last = .error (.invalidAddress text)) ∨
      ∃ a b, covering first last = .error (.familyMismatch a b) := by
  cases hfirst : endOf? first with
  | none => exact .inr (.inl ⟨first, covering_of_none_left hfirst last⟩)
  | some a =>
    cases hlast : endOf? last with
    | none => exact .inr (.inl ⟨last, covering_of_none_right hfirst hlast⟩)
    | some b =>
      by_cases hfamily : a.isV4 = b.isV4
      · obtain ⟨n, hn, -, hleast⟩ := exists_least_covering hfirst hlast hfamily
        exact .inl ⟨a, b, n, rfl, rfl, hfamily, hn, hleast⟩
      · exact .inr (.inr ⟨a, b, covering_of_mismatch hfirst hlast hfamily⟩)

theorem covering_comm (h : covering first last = .ok n) : covering last first = .ok n := by
  rcases covering_cases first last with ⟨a, b, m, ha, hb, hfamily, hm, hleast⟩ | ⟨text, herror⟩ | ⟨a, b, herror⟩
  · rw [h, Except.ok.injEq] at hm
    obtain ⟨swapped, hswapped, -, hother⟩ := exists_least_covering hb ha hfamily.symm
    rw [hswapped, hm, hleast.unique hother.symm]
  · rw [h] at herror
    cases herror
  · rw [h] at herror
    cases herror

/-- The network that covers a range is the least one that holds both ends, in whichever order they are given. What does not
read as an address is named, the first end before the last, and ends of two families are reported with both; there is no other
error. -/
theorem covering_is_least (first last : String) :
    (∀ a b, endOf? first = some a → endOf? last = some b → a.isV4 = b.isV4 →
      ∃ n, covering first last = .ok n ∧ n.length = sharedBits a.octets b.octets ∧ n.IsLeast a b ∧
        ∀ c, c.IsBetween a b ∨ c.IsBetween b a → c ∈ n.interval) ∧
    (endOf? first = none → covering first last = .error (.invalidAddress first)) ∧
    (∀ a, endOf? first = some a → endOf? last = none → covering first last = .error (.invalidAddress last)) ∧
    (∀ a b, endOf? first = some a → endOf? last = some b → a.isV4 ≠ b.isV4 →
      covering first last = .error (.familyMismatch a b)) ∧
    (∀ error, covering first last = .error error →
      (∀ a length, error ≠ .lengthTooLong a length) ∧ ∀ text, error ≠ .invalidCidr text) ∧
    ∀ n, covering first last = .ok n → covering last first = .ok n := by
  refine ⟨fun a b ha hb hfamily => ?_, fun h => covering_of_none_left h last, fun a => covering_of_none_right,
    fun a b => covering_of_mismatch, fun error herror => ?_, fun n => covering_comm⟩
  · obtain ⟨n, hn, hlength, hleast⟩ := exists_least_covering ha hb hfamily
    refine ⟨n, hn, hlength, hleast, fun c hc => ?_⟩
    rcases hc with hc | hc
    · exact mem_interval_of_isBetween hleast.first hleast.last hc
    · exact mem_interval_of_isBetween hleast.last hleast.first hc
  · rcases covering_cases first last with ⟨_, _, n, -, -, -, hn, -⟩ | ⟨text, htext⟩ | ⟨a, b, hmismatch⟩
    · rw [hn] at herror
      cases herror
    · rw [htext] at herror
      cases herror
      exact ⟨fun _ _ => nofun, fun _ => nofun⟩
    · rw [hmismatch] at herror
      cases herror
      exact ⟨fun _ _ => nofun, fun _ => nofun⟩

/-- The least network around two addresses that are not its ends, given in either order and with blanks. -/
theorem covering_is_least_unaligned :
    let a : Address := .v4 0x01010105#32
    let b : Address := .v4 0x01010106#32
    endOf? " 1.1.1.5" = some a ∧ endOf? "1.1.1.6\n" = some b ∧ a.isV4 = b.isV4 ∧
      ∃ n, covering " 1.1.1.5" "1.1.1.6\n" = .ok n ∧ covering "1.1.1.6\n" " 1.1.1.5" = .ok n ∧ n.length = 30 ∧
        n.IsLeast a b := by
  intro a b
  obtain ⟨hcovers, -, -, -, -, hcomm⟩ := covering_is_least " 1.1.1.5" "1.1.1.6\n"
  have ha : endOf? " 1.1.1.5" = some a := by decide +kernel
  have hb : endOf? "1.1.1.6\n" = some b := by decide +kernel
  obtain ⟨n, hn, hlength, hleast, -⟩ := hcovers a b ha hb rfl
  have hthirty : sharedBits a.octets b.octets = 30 := by decide +kernel
  exact ⟨ha, hb, rfl, n, hn, hcomm n hn, hlength.trans hthirty, hleast⟩

end Network
end AssetGraph

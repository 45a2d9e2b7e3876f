import AssetGraph.Proofs.Network.Interval

/-!
# Mask arithmetic stays in range

Masks are made with numbers of one byte and words of 128 bits, where a difference must not fall below zero, a shift must move by fewer
places than the word has, and a word that is cut to 32 bits must not lose any. Here all that is computed for networks is computed a
second time with every such step refused that leaves its range. A mask is refused exactly when its length exceeds the width of the
address; networks are made with a length that fits, and compared with addresses of their own family only, so that nothing is refused.
-/
namespace AssetGraph

/-- A step of word arithmetic that leaves its range. -/
inductive Overrun where
  | difference (x y : Nat)
  | shift (amount : Nat)
  | maskWidth (width : Nat)
  | cut (word : BitVec 128)
  deriving DecidableEq

abbrev Guarded (α : Type) := Except Overrun α

/-- A base and a length that need not fit each other. -/
structure RawNetwork where
  base : Address
  length : Nat

def Network.raw (n : Network) : RawNetwork := ⟨n.base, n.length⟩

namespace Guarded

def subtract (x y : Nat) : Guarded Nat := if y ≤ x then .ok (x - y) else .error (.difference x y)

def shiftLeft (word : BitVec 128) (amount : Nat) : Guarded (BitVec 128) :=
  if amount < 128 then .ok (word <<< amount) else .error (.shift amount)

def fullMask (width : Nat) : Guarded (BitVec 128) :=
  if width = 128 then .ok (BitVec.allOnes 128)
  else if width = 32 then do
    let power ← shiftLeft 1 width
    return BitVec.ofNat 128 (← subtract power.toNat 1)
  else .error (.maskWidth width)

def prefixMask (width length : Nat) : Guarded (BitVec 128) :=
  if length = 0 then .ok 0
  else do
    let high ← shiftLeft (BitVec.allOnes 128) (← subtract width length)
    return high &&& (← fullMask width)

def ofWord (a : Address) (word : BitVec 128) : Guarded Address :=
  if word.toNat < 2 ^ a.width then .ok (a.ofWord word) else .error (.cut word)

def mask (a : Address) (length : Nat) : Guarded Address := do
  ofWord a (a.toWord &&& (← prefixMask a.width length))

def make (a : Address) (length : Nat) : Guarded (Except Network.Error RawNetwork) :=
  if a.width < length then .ok (.error (.lengthTooLong a length))
  else do return .ok ⟨← mask a length, length⟩

def parse (s : String) : Guarded (Except Network.Error RawNetwork) :=
  match Text.splitFirst? '/' (Text.trim s.toList) with
  | none => .ok (.error (.invalidCidr s))
  | some (address, length) =>
    match Address.parse? (String.ofList address), Numeral.readUnsigned? 256 length with
    | some address, some length => make address length
    | _, _ => .ok (.error (.invalidCidr s))

def covering (first last : String) : Guarded (Except Network.Error RawNetwork) :=
  match Network.readEnd first, Network.readEnd last with
  | .error e, _ => .ok (.error e)
  | .ok _, .error e => .ok (.error e)
  | .ok first, .ok last =>
    match first.commonLength? last with
    | some length => make first length
    | none => .ok (.error (.familyMismatch first last))

def last (n : RawNetwork) : Guarded Address := do
  let kept ← prefixMask n.base.width n.length
  let hostBits := ~~~kept &&& (← fullMask n.base.width)
  ofWord n.base (n.base.toWord ||| hostBits)

def contains (n : RawNetwork) (a : Address) : Guarded Bool :=
  if n.base.isV4 = a.unmap.isV4 then do return (← mask a.unmap n.length) == n.base
  else .ok false

def containsNetwork (n other : RawNetwork) : Guarded Bool :=
  if n.length ≤ other.length then contains n other.base else .ok false

variable {α β : Type} {a : Address} {width length x y : Nat} {word : BitVec 128}

theorem ok_bind (value : α) (next : α → Guarded β) : (Except.ok value >>= next) = next value := rfl

theorem subtract_of_le (h : y ≤ x) : subtract x y = .ok (x - y) := if_pos h

theorem shiftLeft_of_lt (h : x < 128) : shiftLeft word x = .ok (word <<< x) := if_pos h

theorem fullMask_eq (h : width = 32 ∨ width = 128) : fullMask width = .ok (Address.fullMask width) := by
  rcases h with rfl | rfl <;> rfl

/-- The mask of a length is refused when the length exceeds the width. -/
theorem prefixMask_eq (h : width = 32 ∨ width = 128) :
    prefixMask width length =
      if length ≤ width then .ok (Address.prefixMask width length) else .error (.difference width length) := by
  unfold prefixMask Address.prefixMask
  by_cases hzero : length = 0
  · rw [if_pos hzero, if_pos hzero, if_pos (by omega)]
  · rw [if_neg hzero, if_neg hzero]
    split
    · rename_i hlength
      have hamount : width - length < 128 := by omega
      rw [subtract_of_le hlength, ok_bind, shiftLeft_of_lt hamount, ok_bind, fullMask_eq h]
      rfl
    · rename_i hlength
      rw [subtract, if_neg hlength]
      rfl

theorem width_cases (a : Address) : a.width = 32 ∨ a.width = 128 := by
  cases a with
  | v4 _ => exact .inl rfl
  | v6 _ => exact .inr rfl

theorem ofWord_of_lt (h : word.toNat < 2 ^ a.width) : ofWord a word = .ok (a.ofWord word) := if_pos h

theorem mask_eq (a : Address) (length : Nat) :
    mask a length = if length ≤ a.width then .ok (a.mask length) else .error (.difference a.width length) := by
  rw [mask, prefixMask_eq (width_cases a)]
  split
  · have hfits : (a.toWord &&& Address.prefixMask a.width length).toNat < 2 ^ a.width := by
      rw [BitVec.toNat_and]
      exact Nat.lt_of_le_of_lt Nat.and_le_left a.toWord_lt
    exact ofWord_of_lt hfits
  · rfl

/-- An IPv6 length does not fit an IPv4 address, so that the families are compared before a mask is made. -/
example : mask (.v4 0x01020304#32) 64 = .error (.difference 32 64) := rfl

theorem make_eq (a : Address) (length : Nat) : make a length = .ok ((Network.make a length).map Network.raw) := by
  rw [make, Network.make, Network.of?]
  by_cases h : length ≤ a.width
  · rw [if_neg (Nat.not_lt.mpr h), mask_eq, if_pos h, dif_pos h]
    rfl
  · rw [if_pos (Nat.not_le.mp h), dif_neg h]
    rfl

theorem parse_eq (s : String) : parse s = .ok ((Network.parse s).map Network.raw) := by
  unfold parse Network.parse
  cases Text.splitFirst? '/' (Text.trim s.toList) with
  | none => rfl
  | some parts =>
    obtain ⟨address, length⟩ := parts
    dsimp only
    cases Address.parse? (String.ofList address) with
    | none => rfl
    | some a =>
      cases Numeral.readUnsigned? 256 length with
      | none => rfl
      | some length => exact make_eq a length

theorem covering_eq (first last : String) : covering first last = .ok ((Network.covering first last).map Network.raw) := by
  unfold covering Network.covering
  cases Network.readEnd first with
  | error e => rfl
  | ok a =>
    cases Network.readEnd last with
    | error e => rfl
    | ok b =>
      dsimp only [bind, Except.bind]
      cases a.commonLength? b with
      | none => rfl
      | some length => exact make_eq a length

theorem last_eq (n : Network) : last n.raw = .ok n.last := by
  have hwidth := width_cases n.base
  have hmask : prefixMask n.base.width n.length = .ok (Address.prefixMask n.base.width n.length) := by
    rw [prefixMask_eq hwidth, if_pos n.length_le]
  have hfull : (Address.fullMask n.base.width).toNat < 2 ^ n.base.width := by
    rcases hwidth with h | h <;> rw [h] <;> decide
  let hostBits := ~~~Address.prefixMask n.base.width n.length &&& Address.fullMask n.base.width
  have hfits : (n.base.toWord ||| hostBits).toNat < 2 ^ n.base.width := by
    rw [BitVec.toNat_or, BitVec.toNat_and]
    exact Nat.or_lt_two_pow n.base.toWord_lt (Nat.lt_of_le_of_lt Nat.and_le_right hfull)
  rw [last, Network.raw, hmask, ok_bind, fullMask_eq hwidth, ok_bind]
  exact ofWord_of_lt hfits

/-- A network is compared with addresses of its own family only, so it is refused just when its length does not fit its base. -/
theorem contains_eq_ite (n : RawNetwork) (a : Address) :
    contains n a =
      if n.base.isV4 = a.unmap.isV4 then
        if n.length ≤ n.base.width then .ok (a.unmap.mask n.length == n.base) else .error (.difference n.base.width n.length)
      else .ok false := by
  rw [contains]
  split
  · rename_i hfamily
    rw [mask_eq, ← Address.width_eq_of_isV4_eq hfamily]
    split <;> rfl
  · rfl

theorem contains_eq (n : Network) (a : Address) : contains n.raw a = .ok (n.contains a) := by
  rw [contains_eq_ite, Network.raw, Network.contains]
  dsimp only
  by_cases hfamily : n.base.isV4 = a.unmap.isV4
  · rw [if_pos hfamily, if_pos n.length_le, hfamily, beq_self_eq_true, Bool.true_and]
  · rw [if_neg hfamily, beq_eq_false_iff_ne.mpr hfamily, Bool.false_and]

theorem containsNetwork_eq (n other : Network) : containsNetwork n.raw other.raw = .ok (n.containsNetwork other) := by
  rw [containsNetwork, Network.containsNetwork]
  change (if n.length ≤ other.length then contains n.raw other.base else .ok false) = _
  by_cases h : n.length ≤ other.length
  · rw [if_pos h, decide_eq_true h, Bool.true_and]
    exact contains_eq n other.base
  · rw [if_neg h, decide_eq_false h, Bool.false_and]

end Guarded
end AssetGraph

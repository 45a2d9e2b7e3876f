/-!
# Binary floating-point numbers

A finite double is kept as sign, mantissa and binary exponent, and every operation rounds the exact rational
result once, to the nearest double and to the even mantissa on a tie. All arithmetic is on natural numbers.
-/
namespace AssetGraph

/-- The number `±mantissa · 2 ^ exponent` with `mantissa < 2 ^ 53` and `-1074 ≤ exponent ≤ 971`; the mantissa
is at least `2 ^ 52` unless the exponent is least. -/
structure Binary64 where
  negative : Bool
  mantissa : Nat
  exponent : Int
  deriving DecidableEq, Repr, Inhabited

namespace Binary64

def leastExponent : Int := -1074

def leastMantissa : Nat := Nat.pow 2 52

def greatestExponent : Int := 971

def zero (negative : Bool) : Binary64 := ⟨negative, 0, leastExponent⟩

def scaled (num den : Nat) (shift : Int) : Nat × Nat :=
  if shift < 0 then (num, den * Nat.pow 2 shift.natAbs) else (num * Nat.pow 2 shift.natAbs, den)

/-- The integer nearest to `num / den`, the even one on a tie. -/
def roundedQuotient (num den : Nat) : Nat :=
  let q := num / den
  let r := num % den
  if den < 2 * r ∨ (2 * r = den ∧ q % 2 = 1) then q + 1 else q

/-- The binary exponent at which `num / den` has a 53-bit integer part, or the least one. -/
def exponentFor (num den : Nat) : Int :=
  let guess : Int := (num.log2 : Int) - den.log2 - 52
  let (n, d) := scaled num den (-guess)
  max leastExponent (if n < d * leastMantissa then guess - 1 else guess)

/-- The double nearest to `±num / den`; none when that is too large. -/
def ofRatio? (negative : Bool) (num den : Nat) : Option Binary64 :=
  if num = 0 then some (zero negative)
  else
    let e := exponentFor num den
    let (n, d) := scaled num den (-e)
    let m := roundedQuotient n d
    let (m, e) := if m = 2 * leastMantissa then (leastMantissa, e + 1) else (m, e)
    if greatestExponent < e then none else some ⟨negative, m, e⟩

def magnitude (x : Binary64) : Nat × Nat := scaled x.mantissa 1 x.exponent

def ofNat? (n : Nat) : Option Binary64 := ofRatio? false n 1

def mul? (x y : Binary64) : Option Binary64 :=
  let (a, b) := x.magnitude
  let (c, d) := y.magnitude
  ofRatio? (x.negative != y.negative) (a * c) (b * d)

def div? (x y : Binary64) : Option Binary64 :=
  let (a, b) := x.magnitude
  let (c, d) := y.magnitude
  ofRatio? (x.negative != y.negative) (a * d) (b * c)

def addMagnitudes? (x y : Binary64) : Option Binary64 :=
  let (a, b) := x.magnitude
  let (c, d) := y.magnitude
  ofRatio? false (a * d + c * b) (b * d)

def neg (x : Binary64) : Binary64 := { x with negative := !x.negative }

example : ofRatio? false 1 10 = some ⟨false, 0x1999999999999A, -56⟩ := by decide +kernel
example : ofRatio? false 1 (Nat.pow 10 400) = some (zero false) := by decide +kernel
example : ofRatio? false (Nat.pow 10 309) 1 = none := by decide +kernel

end Binary64
end AssetGraph

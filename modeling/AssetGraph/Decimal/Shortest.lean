import AssetGraph.Decimal.Binary64
import AssetGraph.Numeral

/-!
# The shortest decimal that reads back

Among the decimals that round to a double, `digits` takes one with the fewest digits, and of those the nearest.
`render` lays the digits out: positionally between `1e-5` and `1e16`, with a point in every number, and with a
signed exponent outside.
-/
namespace AssetGraph.Binary64

/-- A decimal `0.d₁d₂… · 10 ^ point`. -/
structure Digits where
  digits : List Nat
  point : Int
  deriving DecidableEq, Repr

/-- Whether `num / den` rounds to the positive double `x`; the ends count when the mantissa is even. -/
def roundsTo (x : Binary64) (num den : Nat) : Bool :=
  -- The gap below a power of two is half the gap above it.
  let quarter := x.exponent - 2
  let below := if x.mantissa = leastMantissa ∧ leastExponent < x.exponent then 1 else 2
  let (n, d) := scaled num den (-quarter)
  let low := (4 * x.mantissa - below) * d
  let high := (4 * x.mantissa + 2) * d
  if x.mantissa % 2 = 0 then low ≤ n && n ≤ high else low < n && n < high

/-- The least `point` with `num / den < 10 ^ point`, sought upwards. -/
def pointAbove (num den : Nat) : Nat → Int → Int
  | 0, p => p
  | fuel + 1, p =>
    let below := if p < 0 then decide (num * Nat.pow 10 p.natAbs < den) else decide (num < den * Nat.pow 10 p.natAbs)
    if below then p else pointAbove num den fuel (p + 1)

/-- The neighbours of `num / den` on the grid of multiples of `10 ^ place`, the nearer first. -/
def neighbours (num den : Nat) (place : Int) : List Nat :=
  let (n, d) := if place < 0 then (num * Nat.pow 10 place.natAbs, den) else (num, den * Nat.pow 10 place.natAbs)
  let q := n / d
  let r := n % d
  if 2 * r < d ∨ (2 * r = d ∧ q % 2 = 0) then [q, q + 1] else [q + 1, q]

/-- The first of the grids with 1, 2, … digits that holds a decimal rounding to `x`. -/
def firstGrid (x : Binary64) (num den : Nat) (point : Int) : Nat → Nat → Nat × Int
  | 0, count => (((neighbours num den (point - count)).headD 0), point - count)
  | fuel + 1, count =>
    let place := point - count
    let fits (n : Nat) : Bool :=
      if place < 0 then roundsTo x n (Nat.pow 10 place.natAbs) else roundsTo x (n * Nat.pow 10 place.natAbs) 1
    match (neighbours num den place).find? fits with
    | some n => (n, place)
    | none => firstGrid x num den point fuel (count + 1)

/-- The digits of a natural number without final zeros, with the place that its unit then has. -/
def stripZeros : Nat → Nat → Int → Nat × Int
  | 0, n, place => (n, place)
  | fuel + 1, n, place =>
    if n ≠ 0 ∧ n % 10 = 0 then stripZeros fuel (n / 10) (place + 1) else (n, place)

def digits (x : Binary64) : Digits :=
  let (num, den) := x.magnitude
  let point := pointAbove num den 700 (-330)
  let (n, place) := firstGrid x num den point 16 1
  let (n, place) := stripZeros 20 n place
  let ds := (Numeral.render 10 n).map fun c => c.toNat - 48
  ⟨ds, place + ds.length⟩

def layout (d : Digits) : List Char :=
  let ds := d.digits.map Numeral.digit
  let count : Int := ds.length
  if count ≤ d.point ∧ d.point ≤ 16 then
    ds ++ List.replicate (d.point - count).toNat '0' ++ ['.', '0']
  else if 0 < d.point ∧ d.point ≤ 16 then
    ds.take d.point.toNat ++ '.' :: ds.drop d.point.toNat
  else if -5 < d.point ∧ d.point ≤ 0 then
    '0' :: '.' :: List.replicate d.point.natAbs '0' ++ ds
  else
    let power := d.point - 1
    let sign := if power < 0 then '-' else '+'
    let fraction := if ds.length ≤ 1 then [] else '.' :: ds.drop 1
    ds.take 1 ++ fraction ++ 'e' :: sign :: Numeral.render 10 power.natAbs

/-- The shortest text that reads back as the number; zero keeps its sign. -/
def render (x : Binary64) : List Char :=
  let text := if x.mantissa = 0 then ['0', '.', '0'] else layout x.digits
  if x.negative then '-' :: text else text

end AssetGraph.Binary64

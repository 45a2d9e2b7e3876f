import AssetGraph.Decimal.Binary64
import AssetGraph.Numeral

/-!
# Hit rates

A hit rate is the double nearest to the quotient of two counts, written with six decimals; a half goes to the even
digit. Without any lookup it is zero.
-/
namespace AssetGraph.Cache

/-- The share of `hits` among hits and misses, as a double. -/
def rate? (hits misses : Nat) : Option Binary64 := do
  let hits ← Binary64.ofNat? hits
  let total ← hits.addMagnitudes? (← Binary64.ofNat? misses)
  if total.mantissa = 0 then none else hits.div? total

def millionthsText (n : Nat) : String :=
  let fraction := Numeral.render 10 (n % 1000000)
  Numeral.text (n / 1000000) ++ "." ++ String.ofList (List.replicate (6 - fraction.length) '0' ++ fraction)

def rateText (hits misses : Nat) : String :=
  match rate? hits misses with
  | some x => millionthsText (Binary64.roundedQuotient (x.magnitude.1 * 1000000) x.magnitude.2)
  | none => "0.000000"

example : rateText 2 1 = "0.666667" ∧ rateText 0 0 = "0.000000" ∧ rateText 1 127 = "0.007812" := by decide +kernel

end AssetGraph.Cache

/-!
# Numerals

Natural numbers written in a base up to 16. `render` writes without leading zeros and in lower case,
`read?` accepts leading zeros and either case, and `readUnsigned?` is the decimal form that settings and
prefix lengths use: an optional single plus sign and a bound that must not be reached.
-/
namespace AssetGraph.Numeral

def digit (d : Nat) : Char :=
  if d < 10 then Char.ofNat (48 + d) else Char.ofNat (87 + d)

def digitValue? (base : Nat) (c : Char) : Option Nat :=
  let n := c.toNat
  let value? :=
    if 48 ≤ n ∧ n ≤ 57 then some (n - 48)
    else if 97 ≤ n ∧ n ≤ 102 then some (n - 87)
    else if 65 ≤ n ∧ n ≤ 70 then some (n - 55)
    else none
  value?.filter (· < base)

/-- The digits of `n` from the highest, at least one. -/
def render (base n : Nat) : List Char :=
  if _low : n < base ∨ base < 2 then [digit n]
  else render base (n / base) ++ [digit (n % base)]
termination_by n
decreasing_by exact Nat.div_lt_self (by omega) (by omega)

def text (n : Nat) : String := String.ofList (render 10 n)

/-- The number that a list of digit values stands for, the highest first. -/
def ofDigits (base : Nat) (ds : List Nat) : Nat :=
  ds.foldl (fun acc d => acc * base + d) 0

def limit (bits : Nat) : Nat := Nat.pow 2 bits

def read? (base : Nat) (cs : List Char) : Option Nat :=
  if cs.isEmpty then none else (cs.mapM (digitValue? base)).map (ofDigits base)

/-- Reads a decimal number below `bound`, after at most one plus sign. -/
def readUnsigned? (bound : Nat) (cs : List Char) : Option Nat :=
  let digits := match cs with
    | '+' :: rest => rest
    | _ => cs
  (read? 10 digits).filter (· < bound)

example : readUnsigned? 256 "+007".toList = some 7 ∧ readUnsigned? 256 "256".toList = none ∧
    readUnsigned? 256 "++1".toList = none := by decide +kernel

end AssetGraph.Numeral

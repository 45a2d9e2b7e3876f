import AssetGraph.Decimal.Binary64
import AssetGraph.Numeral

/-!
# Words with a meaning

Without quotes some texts are no mere text: the words for nothing, the truth values, and numbers.
-/
namespace AssetGraph.Yaml.Word

def nullWords : List String := ["null", "Null", "NULL", "~"]

def isNull (text : String) : Bool := nullWords.contains text

def boolean? (text : String) : Option Bool :=
  if ["true", "True", "TRUE"].contains text then some true
  else if ["false", "False", "FALSE"].contains text then some false
  else none

/-- The rest after one sign, or the same characters without any. -/
def afterSign : List Char → List Char
  | '+' :: rest => rest
  | '-' :: rest => rest
  | cs => cs

/-- Decimal digits with a zero before them, which are no number. -/
def isPadded (cs : List Char) : Bool :=
  match afterSign cs with
  | '0' :: d :: rest => (d :: rest).all Char.isDigit
  | _ => false

/-- A number without sign: hexadecimal after `0x`, octal after `0o`, binary after `0b`, or else decimal. -/
def magnitude? (cs : List Char) : Option Nat :=
  match cs with
  | '0' :: 'x' :: digits => Numeral.read? 16 digits
  | '0' :: 'o' :: digits => Numeral.read? 8 digits
  | '0' :: 'b' :: digits => Numeral.read? 2 digits
  | digits => if isPadded digits then none else Numeral.read? 10 digits

/-- A natural number below `bound`, after at most one plus sign. -/
def natural? (bound : Nat) (text : String) : Option Nat :=
  let cs := match text.toList with
    | '+' :: rest => rest
    | cs => cs
  (magnitude? cs).filter (· < bound)

def isInteger (text : String) : Bool :=
  match text.toList with
  | '-' :: rest => ((magnitude? rest).filter (· ≤ Numeral.limit 127)).isSome
  | _ => (natural? (Numeral.limit 128) text).isSome

/-- The power of ten after the digits of a decimal number, zero if none is written. -/
def power? : List Char → Option Int
  | [] => some 0
  | e :: rest =>
    if e == 'e' || e == 'E' then
      let digits := (Numeral.read? 10 (afterSign rest)).map Int.ofNat
      if rest.head? == some '-' then digits.map (- ·) else digits
    else none

/-- The digits of a decimal number and the power of ten that they are counted in. -/
def decimal? (cs : List Char) : Option (Nat × Int) := do
  let whole := cs.takeWhile Char.isDigit
  let rest := cs.drop whole.length
  let (fraction, rest) := match rest with
    | '.' :: rest => (rest.takeWhile Char.isDigit, rest.dropWhile Char.isDigit)
    | _ => ([], rest)
  let digits ← Numeral.read? 10 (whole ++ fraction)
  let power ← power? rest
  some (digits, power - fraction.length)

/-- Whether `digits · 10 ^ power` is no larger than doubles are. -/
def fitsDouble (digits : Nat) (power : Int) : Bool :=
  let length : Int := (Numeral.render 10 digits).length + power
  if digits = 0 || length < 300 then true
  else if 320 < length then false
  else if power < 0 then (Binary64.ofRatio? false digits (Nat.pow 10 power.natAbs)).isSome
  else (Binary64.ofRatio? false (digits * Nat.pow 10 power.natAbs) 1).isSome

/-- Whether a text is a decimal number that fits a double, infinity or no number at all. -/
def isDecimal (text : String) : Bool :=
  let cs := match text.toList with
    | '+' :: rest => if rest.head?.any ['+', '-'].contains then [] else rest
    | cs => cs
  [".inf", ".Inf", ".INF", "-.inf", "-.Inf", "-.INF"].contains (String.ofList cs) ||
    [".nan", ".NaN", ".NAN"].contains text ||
    (match decimal? (afterSign cs) with
      | some (digits, power) => fitsDouble digits power
      | none => false)

/-- Whether a text without quotes would be read as something other than a text. -/
def isMeaningful (text : String) : Bool :=
  text.isEmpty || isNull text || (boolean? text).isSome || isInteger text || isPadded text.toList || isDecimal text

example : natural? (Numeral.limit 64) "0x1F" = some 31 ∧ natural? (Numeral.limit 64) "01" = none ∧ natural? (Numeral.limit 64) "+0b10" = some 2 := by
  decide +kernel
example : isDecimal "1e308" ∧ isDecimal "-.5" ∧ isDecimal "1e309" = false ∧ isDecimal "1.1.1.1" = false := by
  decide +kernel

end AssetGraph.Yaml.Word

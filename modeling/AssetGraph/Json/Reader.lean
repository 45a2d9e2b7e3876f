import AssetGraph.Json
import AssetGraph.Keyed

/-!
# JSON text, read

`Json.parse?` reads one value with nothing after it. Of two members with one name the last counts. Arrays and
objects nest at most 127 deep, surrogate escapes come in pairs, and a number beyond 64 bits or with a fraction
or an exponent becomes a double.
-/
namespace AssetGraph.Json

def isGap (c : Char) : Bool := c == ' ' || c == '\t' || c == '\n' || c == '\r'

def skipGap (cs : List Char) : List Char := cs.dropWhile isGap

def readUnit : List Char → Option (Nat × List Char)
  | a :: b :: c :: d :: rest => (Numeral.read? 16 [a, b, c, d]).map fun n => (n, rest)
  | _ => none

/-- The character after `\u`; a high surrogate takes the low one that must follow. -/
def readEscapedUnit (cs : List Char) : Option (Char × List Char) := do
  let (unit, rest) ← readUnit cs
  if 0xD800 ≤ unit ∧ unit < 0xDC00 then
    match rest with
    | '\\' :: 'u' :: rest =>
      let (low, rest) ← readUnit rest
      if 0xDC00 ≤ low ∧ low < 0xE000 then
        some (Char.ofNat (0x10000 + (unit - 0xD800) * 0x400 + (low - 0xDC00)), rest)
      else none
    | _ => none
  else if 0xDC00 ≤ unit ∧ unit < 0xE000 then none
  else some (Char.ofNat unit, rest)

def readEscape : List Char → Option (Char × List Char)
  | '"' :: rest => some ('"', rest)
  | '\\' :: rest => some ('\\', rest)
  | '/' :: rest => some ('/', rest)
  | 'b' :: rest => some ('\x08', rest)
  | 'f' :: rest => some ('\x0c', rest)
  | 'n' :: rest => some ('\n', rest)
  | 'r' :: rest => some ('\r', rest)
  | 't' :: rest => some ('\t', rest)
  | 'u' :: rest => readEscapedUnit rest
  | _ => none

/-- The rest of a string after its opening quote; `fuel` bounds the characters. -/
def readString : Nat → List Char → Option (List Char × List Char)
  | 0, _ => none
  | _ + 1, [] => none
  | fuel + 1, c :: rest =>
    if c = '"' then some ([], rest)
    else if c = '\\' then do
      let (escaped, rest) ← readEscape rest
      let (chars, rest) ← readString fuel rest
      some (escaped :: chars, rest)
    else if c.toNat < 0x20 then none
    else do
      let (chars, rest) ← readString fuel rest
      some (c :: chars, rest)

/-- Takes digits after the number `start` as long as the result has at most 64 bits, and gives the digits left. -/
def takeDigits (start : Nat) (ds : List Char) : Nat × List Char :=
  match ds with
  | [] => (start, [])
  | d :: rest =>
    let next := start * 10 + (d.toNat - 48)
    if next < Numeral.limit 64 then takeDigits next rest else (start, ds)

/-- The power of ten as a double, for powers up to 308. -/
def powerOfTen? (k : Nat) : Option Binary64 := Binary64.ofNat? (Nat.pow 10 k)

/-- `x / 10 ^ k` in steps of at most 308, or zero once it is zero. -/
def divideByPower : Nat → Binary64 → Nat → Option Binary64
  | 0, x, _ => some x
  | fuel + 1, x, k =>
    if k ≤ 308 then (powerOfTen? k).bind x.div?
    else if x.mantissa = 0 then some x
    else do divideByPower fuel (← (powerOfTen? 308).bind x.div?) (k - 308)

/-- `±significand · 10 ^ power` as a double: the significand is rounded first and then scaled. A magnitude that
is too large has none. -/
def scaleToDouble? (negative : Bool) (significand : Nat) (power : Int) : Option Binary64 := do
  let x ← Binary64.ofNat? significand
  let y ←
    if 0 ≤ power then
      if power ≤ 308 then (powerOfTen? power.natAbs).bind x.mul?
      else if significand = 0 then some x
      else none
    else divideByPower 5000 x (min power.natAbs 1000000)
  some (if negative then y.neg else y)

def readExponent (cs : List Char) : Option (Int × List Char) :=
  let (negative, cs) := match cs with
    | '-' :: rest => (true, rest)
    | '+' :: rest => (false, rest)
    | _ => (false, cs)
  let ds := cs.takeWhile Char.isDigit
  (Numeral.read? 10 ds).map fun n => (if negative then -(n : Int) else n, cs.drop ds.length)

/-- The power of ten that the exponent part of a number adds, zero when there is none. -/
def readPower : List Char → Option (Int × List Char)
  | 'e' :: rest => readExponent rest
  | 'E' :: rest => readExponent rest
  | rest => some (0, rest)

/-- A number's fraction digits, none when there is no point. -/
def readFraction : List Char → Option (Option (List Char) × List Char)
  | '.' :: rest =>
    let ds := rest.takeWhile Char.isDigit
    if ds.isEmpty then none else some (some ds, rest.drop ds.length)
  | rest => some (none, rest)

def readMagnitude (negative : Bool) (cs : List Char) : Option (Number × List Char) := do
  let whole := match cs with
    | '0' :: _ => ['0']
    | _ => cs.takeWhile Char.isDigit
  if whole.isEmpty then none
  else
    let rest := cs.drop whole.length
    if (rest.takeWhile Char.isDigit).isEmpty then
      let (fraction, rest) ← readFraction rest
      let hasPower := rest.head? = some 'e' ∨ rest.head? = some 'E'
      let (power, rest) ← readPower rest
      let (value, lost) := takeDigits 0 whole
      let isWhole := fraction.isNone ∧ ¬hasPower ∧ lost.isEmpty
      if isWhole ∧ ¬negative then some (.integer value, rest)
      else if isWhole ∧ value ≠ 0 ∧ value ≤ Numeral.limit 63 then some (.integer (-(value : Int)), rest)
      else
        let (value, unread) := takeDigits value (fraction.getD [])
        let read := (fraction.getD []).length - unread.length
        let x ← scaleToDouble? negative value (power + lost.length - read)
        some (.decimal x, rest)
    else none

def readNumber : List Char → Option (Number × List Char)
  | '-' :: rest => readMagnitude true rest
  | cs => readMagnitude false cs

def readWord (word : List Char) (value : Json) (cs : List Char) : Option (Json × List Char) :=
  if word.isPrefixOf cs then some (value, cs.drop word.length) else none

mutual

/-- A value, inside at most `depth` more arrays and objects; `fuel` bounds the steps. -/
def readValue : Nat → Nat → List Char → Option (Json × List Char)
  | 0, _, _ => none
  | fuel + 1, depth, cs =>
    match skipGap cs with
    | '"' :: rest => (readString fuel rest).map fun (chars, rest) => (string (String.ofList chars), rest)
    | '[' :: rest =>
      match depth with
      | 0 => none
      | depth + 1 =>
        match skipGap rest with
        | ']' :: rest => some (array [], rest)
        | rest => (readItems fuel depth rest).map fun (items, rest) => (array items, rest)
    | '\x7b' :: rest =>
      match depth with
      | 0 => none
      | depth + 1 =>
        match skipGap rest with
        | '\x7d' :: rest => some (object [], rest)
        | rest => (readMembers fuel depth rest).map fun (members, rest) =>
            (object (Keyed.ofList members).entries, rest)
    | 't' :: rest => readWord ['r', 'u', 'e'] (bool true) rest
    | 'f' :: rest => readWord ['a', 'l', 's', 'e'] (bool false) rest
    | 'n' :: rest => readWord ['u', 'l', 'l'] null rest
    | rest => (readNumber rest).map fun (n, rest) => (number n, rest)

def readItems : Nat → Nat → List Char → Option (List Json × List Char)
  | 0, _, _ => none
  | fuel + 1, depth, cs => do
    let (item, rest) ← readValue fuel depth cs
    match skipGap rest with
    | ']' :: rest => some ([item], rest)
    | ',' :: rest =>
      let (items, rest) ← readItems fuel depth rest
      some (item :: items, rest)
    | _ => none

def readMembers : Nat → Nat → List Char → Option (List (String × Json) × List Char)
  | 0, _, _ => none
  | fuel + 1, depth, cs =>
    match skipGap cs with
    | '"' :: rest => do
      let (name, rest) ← readString fuel rest
      match skipGap rest with
      | ':' :: rest =>
        let (value, rest) ← readValue fuel depth rest
        match skipGap rest with
        | '\x7d' :: rest => some ([(String.ofList name, value)], rest)
        | ',' :: rest =>
          let (members, rest) ← readMembers fuel depth rest
          some ((String.ofList name, value) :: members, rest)
        | _ => none
      | _ => none
    | _ => none

end

def parse? (s : String) : Option Json := do
  let cs := s.toList
  let (value, rest) ← readValue (2 * cs.length + 2) 127 cs
  if (skipGap rest).isEmpty then some value else none

end AssetGraph.Json

import AssetGraph.Address
import AssetGraph.Numeral
import AssetGraph.Text

/-!
# Address notation

`Address.parse?` reads a whole text as dotted decimal or as colon-separated groups; `Address.render` writes the
canonical form: lower case, no leading zeros, the first of the longest runs of at least two zero groups as `::`,
and the dotted form only behind `::ffff:`.
-/
namespace AssetGraph.Address

/-- One to three decimal digits up to 255, without a leading zero. -/
def readOctet? (cs : List Char) : Option Nat :=
  if cs.length ≤ 3 ∧ (cs.head? ≠ some '0' ∨ cs.length = 1) then
    (Numeral.read? 10 cs).filter (· < 256)
  else none

def parseV4? (cs : List Char) : Option (BitVec 32) :=
  match Text.splitAll '.' cs with
  | [a, b, c, d] => do
    some (ofOctets (← readOctet? a) (← readOctet? b) (← readOctet? c) (← readOctet? d))
  | _ => none

def readGroup? (cs : List Char) : Option Nat :=
  if cs.length ≤ 4 then Numeral.read? 16 cs else none

/-- Groups of which the last may be a dotted address that stands for two. -/
def readGroups? : List (List Char) → Option (List Nat)
  | [] => some []
  | [part] =>
    match parseV4? part with
    | some word => some [word.toNat / 65536, word.toNat % 65536]
    | none => (readGroup? part).map fun g => [g]
  | part :: parts => do
    let g ← readGroup? part
    let gs ← readGroups? parts
    some (g :: gs)

/-- The colon-separated parts of a text; the empty text has none. -/
def colonParts (cs : List Char) : List (List Char) :=
  if cs.isEmpty then [] else Text.splitAll ':' cs

def splitGap? : List Char → Option (List Char × List Char)
  | ':' :: ':' :: rest => some ([], rest)
  | c :: rest => (splitGap? rest).map fun (before, after) => (c :: before, after)
  | [] => none

/-- Eight groups, or fewer around one `::` that stands for the missing ones, at least one. -/
def parseV6? (cs : List Char) : Option (BitVec 128) :=
  match splitGap? cs with
  | some (before, after) => do
    let front ← (colonParts before).mapM readGroup?
    let back ← readGroups? (colonParts after)
    if front.length + back.length ≤ 7 then
      some (ofGroups (front ++ List.replicate (8 - front.length - back.length) 0 ++ back))
    else none
  | none => do
    let gs ← readGroups? (colonParts cs)
    if gs.length = 8 then some (ofGroups gs) else none

/-- Reads the whole text as an address of either family. -/
def parse? (s : String) : Option Address :=
  match parseV4? s.toList with
  | some word => some (v4 word)
  | none => (parseV6? s.toList).map v6

def zerosAhead (gs : List Nat) : Nat := (gs.takeWhile (· == 0)).length

/-- Start and length of the first of the longest runs of zeros. -/
def longestZeros (gs : List Nat) : Nat × Nat :=
  (List.range gs.length).foldl
    (fun best i => if best.2 < zerosAhead (gs.drop i) then (i, zerosAhead (gs.drop i)) else best) (0, 0)

def renderGroups (gs : List Nat) : String :=
  Text.join ":" (gs.map fun g => String.ofList (Numeral.render 16 g))

def renderV4 (word : BitVec 32) : String :=
  Text.join "." ((v4 word).octets.map Numeral.text)

def renderV6 (word : BitVec 128) : String :=
  match unmap (v6 word) with
  | v4 inner => "::ffff:" ++ renderV4 inner
  | v6 _ =>
    let gs := groups word
    let (start, count) := longestZeros gs
    if 2 ≤ count then renderGroups (gs.take start) ++ "::" ++ renderGroups (gs.drop (start + count))
    else renderGroups gs

def render : Address → String
  | v4 word => renderV4 word
  | v6 word => renderV6 word

end AssetGraph.Address

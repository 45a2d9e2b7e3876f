import AssetGraph.Text.LetterCase

/-!
# Lower case

`lowercase` maps a text to lower case by Unicode's full mapping: letter by letter, except that `İ` becomes two
characters and that a capital sigma at the end of a word becomes the final one.
-/
namespace AssetGraph.Text

def inRanges (ranges : List (Nat × Nat)) (c : Char) : Bool :=
  ranges.any fun (first, last) => first ≤ c.toNat && c.toNat ≤ last

def CaseRun.holds (run : CaseRun) (n : Nat) : Bool :=
  run.first ≤ n && n ≤ run.last && (n - run.first) % run.stride == 0

def lowerLetter (c : Char) : Char :=
  match lowerRuns.find? fun run => run.holds c.toNat with
  | some run => Char.ofNat (c.toNat + run.offset).toNat
  | none => c

/-- Whether the first character that is not passed over has case. -/
def startsCased (cs : List Char) : Bool :=
  match cs.dropWhile (inRanges ignorableRanges) with
  | c :: _ => inRanges casedRanges c
  | [] => false

/-- Lower case of a text whose preceding characters, the nearest first, are `before`. -/
def lowercaseAfter (before : List Char) : List Char → List Char
  | [] => []
  | c :: rest =>
    let lower :=
      if c = 'Σ' then [if startsCased before && !startsCased rest then 'ς' else 'σ']
      else if c = 'İ' then ['i', '\u0307']
      else [lowerLetter c]
    lower ++ lowercaseAfter (c :: before) rest

def lowercase (s : String) : String :=
  String.ofList (lowercaseAfter [] s.toList)

example : lowercase "ΌΔΟΣ Σ NS1" = "όδος σ ns1" := by decide +kernel

end AssetGraph.Text

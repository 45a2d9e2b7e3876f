import AssetGraph.Yaml.Block
import AssetGraph.Yaml.Plain
import AssetGraph.Yaml.Quoted
import AssetGraph.Yaml.Token
import AssetGraph.Yaml.Word

/-!
# Scalars, written

`Style.of` chooses how a text is written so that it reads as that text: without quotes if nothing forbids it, under a
bar if it has line feeds, and between quotes otherwise.
-/
namespace AssetGraph.Yaml

/-- Whether one of two classes is directly followed by the other somewhere in a text. -/
def hasPair (first second : Char → Bool) : List Char → Bool
  | c :: d :: rest => (first c && second d) || hasPair first second (d :: rest)
  | _ => false

def isSpace (c : Char) : Bool := c == ' '

/-- Whether a text reads the same without quotes, as far as its characters go. -/
def fitsPlain (cs : List Char) : Bool :=
  Plain.canStart cs && Plain.goesOn cs && cs.all (fun c => isPrintable c && !isBreak c) &&
    !cs.getLast?.any isSpace && !(['-', '-', '-'].isPrefixOf cs) && !(['.', '.', '.'].isPrefixOf cs)

/-- Whether a text may stand between single quotes: a space next to a break would be lost. -/
def fitsSingleQuotes (cs : List Char) : Bool :=
  cs.all isPrintable && !hasPair isSpace isBreak cs && !hasPair isBreak isSpace cs

def fitsBlock (cs : List Char) : Bool :=
  cs.all isPrintable && !hasPair isSpace isBreak cs && !cs.getLast?.any isSpace

def Style.of (text : String) : Style :=
  let cs := text.toList
  let quoted : Style := if fitsSingleQuotes cs then .singleQuoted else .doubleQuoted
  if cs.contains '\n' then (if fitsBlock cs then .literal else .doubleQuoted)
  else if Word.isMeaningful text then quoted
  else if fitsPlain cs then .plain
  else quoted

/-- A text with the end of its last line; further lines are indented by `indent`. -/
def writeText (indent : Nat) (text : String) : List Char :=
  let cs := text.toList
  match Style.of text with
  | .plain => cs ++ ['\n']
  | .singleQuoted => Quoted.writeSingle indent cs ++ ['\n']
  | .literal | .folded =>
    Block.writeLiteral indent cs ++ (if cs.getLast?.any isBreak then [] else ['\n'])
  | .doubleQuoted => Quoted.writeDouble cs ++ ['\n']

end AssetGraph.Yaml

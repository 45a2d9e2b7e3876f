import AssetGraph.Numeral
import AssetGraph.Yaml.Cursor

/-!
# Block scalars

A block scalar is a text on lines of its own under a bar or an angle. Its indentation is given by a digit or by its
first line, and a sign says what becomes of the line breaks at its end.
-/
namespace AssetGraph.Yaml.Block

/-- What becomes of the line breaks at the end: none, one or all of them stay. -/
inductive Ending where
  | strip
  | clip
  | keep
  deriving DecidableEq, Repr

def Ending.ofSign? : Char → Option Ending
  | '-' => some .strip
  | '+' => some .keep
  | _ => none

def takeEnding (place : Cursor) : Ending × Cursor :=
  match place.rest.head?.bind Ending.ofSign? with
  | some ending => (ending, place.advance 1)
  | none => (.clip, place)

/-- A digit for the indentation, or none; zero is an error. -/
def takeIndent? (place : Cursor) : Option (Option Nat × Cursor) :=
  match place.rest.head?.bind (Numeral.digitValue? 10) with
  | none => some (none, place)
  | some 0 => none
  | some n => some (some n, place.advance 1)

/-- The rest of the line that a block scalar starts on: sign and digit in either order. -/
def takeHeader? (place : Cursor) : Option (Ending × Option Nat × Cursor) := do
  match place.rest.head?.bind Ending.ofSign? with
  | some ending =>
    let (indent?, place) ← takeIndent? (place.advance 1)
    some (ending, indent?, ← place.finishLine?)
  | none =>
    let (indent?, place) ← takeIndent? place
    let (ending, place) := takeEnding place
    some (ending, indent?, ← place.finishLine?)

/-- Whether a column still belongs to the indentation; without a limit every one does. -/
def isIndentation (limit? : Option Nat) (column : Nat) : Bool := limit?.all (column < ·)

/-- Empty lines, and the indentation of the line after them: the line breaks, the deepest column reached, and where
the document goes on. A tab in the indentation is an error. -/
def takeEmptyLines? (limit? : Option Nat) (line column deepest : Nat) (rest : List Char) :
    Option (List Char × Nat × Cursor) :=
  match rest with
  | [] => some ([], max deepest column, ⟨[], line, column⟩)
  | c :: after =>
    if isBreak c then
      (takeEmptyLines? limit? (line + 1) 0 (max deepest column) after).map fun (breaks, rest) => (c :: breaks, rest)
    else if isBlank c && isIndentation limit? column then
      if c == '\t' then none else takeEmptyLines? limit? line (column + 1) deepest after
    else some ([], max deepest column, ⟨rest, line, column⟩)

/-- The lines of a block scalar up to one that is indented differently. -/
structure Lines where
  text : List Char
  /-- The break of the last line. -/
  lastBreak : List Char
  /-- The empty lines after it. -/
  emptyLines : List Char
  next : Cursor
  deriving Repr

/-- What two lines are joined by: the breaks between them, or in a folded scalar those of the empty lines alone, or a
space if there is none. Lines that start with a blank keep all their breaks. -/
def joint (folded afterBlank startsBlank : Bool) (lastBreak emptyLines : List Char) : List Char :=
  if folded && lastBreak.head? == some '\n' && !afterBlank && !startsBlank then
    if emptyLines.isEmpty then [' '] else emptyLines
  else lastBreak ++ emptyLines

/-- The lines at column `indent` after a line that ended with `lastBreak` and `emptyLines`; `fuel` bounds them. -/
def takeLines? (folded : Bool) (indent : Nat) : Nat → Bool → List Char → List Char → Cursor → Option Lines
  | 0, _, _, _, _ => none
  | fuel + 1, afterBlank, lastBreak, emptyLines, place =>
    if place.column ≠ indent || place.rest.isEmpty then some ⟨[], lastBreak, emptyLines, place⟩
    else do
      let startsBlank := place.rest.head?.any isBlank
      let line := place.rest.takeWhile (!isBreak ·)
      let lineEnd := place.advance line.length
      let start := if lineEnd.rest.isEmpty then lineEnd else lineEnd.nextLine
      let (empty, _, place) ← takeEmptyLines? (some indent) start.line start.column 0 start.rest
      let lines ← takeLines? folded indent fuel startsBlank (lineEnd.rest.take 1) empty place
      some { lines with text := joint folded afterBlank startsBlank lastBreak emptyLines ++ line ++ lines.text }

/-- A block scalar from its bar or angle on, inside a block at `margin`. -/
def read? (folded : Bool) (margin : Nat) (place : Cursor) : Option (List Char × Cursor) := do
  let (ending, digit?, place) ← takeHeader? (place.advance 1)
  let limit? := digit?.map (margin - 1 + ·)
  let (empty, deepest, place) ← takeEmptyLines? limit? place.line place.column 0 place.rest
  let indent := limit?.getD (max deepest (max margin 1))
  let lines ← takeLines? folded indent (place.rest.length + 1) false [] empty place
  let atEnd := match ending with
    | .strip => []
    | .clip => lines.lastBreak
    | .keep => lines.lastBreak ++ lines.emptyLines
  some (lines.text ++ atEnd, lines.next)

/-- The sign for the line breaks that a text ends with: one needs none. -/
def endingSign (text : List Char) : List Char :=
  match text.reverse with
  | [] => ['-']
  | [c] => if isBreak c then ['+'] else ['-']
  | c :: d :: _ => if !isBreak c then ['-'] else if isBreak d then ['+'] else []

/-- A text as it is, under a bar. Its lines start with `indent` spaces, two more than the block around it, and the
digit for that is written when the text itself starts with a space or a break. -/
def writeLiteral (indent : Nat) (text : List Char) : List Char :=
  let digit := if text.head?.any (fun c => c == ' ' || isBreak c) then ['2'] else []
  '|' :: digit ++ endingSign text ++ '\n' :: lines true text
where
  lines (afterBreak : Bool) : List Char → List Char
    | [] => []
    | c :: rest =>
      if isBreak c then c :: lines true rest
      else (if afterBreak then List.replicate indent ' ' else []) ++ c :: lines false rest

end AssetGraph.Yaml.Block

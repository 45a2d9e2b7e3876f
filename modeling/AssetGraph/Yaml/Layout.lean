import AssetGraph.Yaml.Block
import AssetGraph.Yaml.Plain
import AssetGraph.Yaml.Quoted
import AssetGraph.Yaml.Tag

/-!
# Tokens of a document

Reading goes through the document once and writes down its tokens. Two things show only later. A block ends where the
text moves back to the left, so the open blocks are kept with their columns. And a node turns out to be a key at the
colon after it, so the place of every node that can be one is kept as a `Candidate` until its line ends; the colon
puts the token `key` there.
-/
namespace AssetGraph.Yaml

/-- A node that may be a key. -/
structure Candidate where
  /-- How many tokens stand before it. -/
  position : Nat
  line : Nat
  column : Nat
  /-- Whether a node at this place can be nothing but a key. -/
  required : Bool
  deriving DecidableEq, Repr

/-- How much of a document has been read. -/
structure Layout where
  place : Cursor
  /-- The tokens so far, the last one first. -/
  tokens : List Token := []
  /-- The open blocks, innermost first, each by the column after its own: what lies deeper starts there or further. -/
  margins : List Nat := []
  /-- The candidates around the open flow collections, innermost first. -/
  outer : List (Option Candidate) := []
  candidate? : Option Candidate := none
  /-- Whether a key may start here. -/
  keyAllowed : Bool := true
  deriving Repr

namespace Layout

/-- The least column of what lies inside the innermost block. -/
def margin (s : Layout) : Nat := s.margins.headD 0

def inFlow (s : Layout) : Bool := !s.outer.isEmpty

def push (s : Layout) (token : Token) (place : Cursor) : Layout :=
  { s with tokens := token :: s.tokens, place }

/-- Closes the blocks at a column of at least `column`. -/
def closeFrom (s : Layout) (column : Nat) : Layout :=
  if s.inFlow then s
  else
    { s with
      margins := s.margins.dropWhile (column < ·)
      tokens := (s.margins.takeWhile (column < ·)).map (fun _ => Token.blockEnd) ++ s.tokens }

/-- Closes the blocks that the text has moved back from. -/
def close (s : Layout) : Layout := s.closeFrom (s.place.column + 1)

def closeAll (s : Layout) : Layout := s.closeFrom 0

/-- Opens a block at `column` if that lies deeper than the innermost one. -/
def openBlock (s : Layout) (block : Token) (column : Nat) : Layout :=
  if !s.inFlow && s.margin ≤ column then
    { s with margins := (column + 1) :: s.margins, tokens := block :: s.tokens }
  else s

/-- Gives up the candidate, which must not have been required. -/
def dropCandidate? (s : Layout) : Option Layout :=
  if s.candidate?.any (·.required) then none else some { s with candidate? := none }

/-- Takes the node that starts here as a candidate, if a key may start here. -/
def markCandidate? (s : Layout) : Option Layout :=
  if s.keyAllowed then do
    let s ← s.dropCandidate?
    some { s with candidate? := some {
      position := s.tokens.length
      line := s.place.line
      column := s.place.column
      required := !s.inFlow && s.margin = s.place.column + 1 } }
  else some s

/-- Whether the text has gone past the line of a candidate, or more than 1024 characters on. -/
def isStale (place : Cursor) (c : Candidate) : Bool := c.line < place.line || c.column + 1024 < place.column

/-- Keeps a candidate until it is stale, which a required one must not become. -/
def refresh? (place : Cursor) (candidate? : Option Candidate) : Option (Option Candidate) :=
  match candidate? with
  | none => some none
  | some c => if isStale place c then (if c.required then none else some none) else some (some c)

def refreshAll? (s : Layout) : Option Layout := do
  let candidate? ← refresh? s.place s.candidate?
  let outer ← s.outer.mapM (refresh? s.place)
  some { s with candidate?, outer }

/-- A byte order mark, which counts as a blank at the start of a line. -/
def byteOrderMark : Char := '\uFEFF'

/-- Goes past blanks, line breaks and comments; a key may start after a line break, and in a block only spaces may come
before it. -/
def skipGapFrom (inFlow inComment keyAllowed : Bool) (line column : Nat) (rest : List Char) : Cursor × Bool :=
  match rest with
  | [] => (⟨[], line, column⟩, keyAllowed)
  | c :: after =>
    if isBreak c then skipGapFrom inFlow false (keyAllowed || !inFlow) (line + 1) 0 after
    else if inComment || c == '#' then skipGapFrom inFlow true keyAllowed line (column + 1) after
    else if c == ' ' || (c == '\t' && (inFlow || !keyAllowed)) || (c == byteOrderMark && column == 0) then
      skipGapFrom inFlow false keyAllowed line (column + 1) after
    else (⟨rest, line, column⟩, keyAllowed)

def skipGap (s : Layout) : Layout :=
  let (place, keyAllowed) := skipGapFrom s.inFlow false s.keyAllowed s.place.line s.place.column s.place.rest
  { s with place, keyAllowed }

/-- Puts tokens, the last one first, at a position among those already there. -/
def insertAt (tokens : List Token) (position : Nat) (added : List Token) : List Token :=
  let later := tokens.length - position
  tokens.take later ++ added ++ tokens.drop later

/-- A directive or document boundary: it closes everything and no key may follow it on its line. -/
def startsOver? (s : Layout) : Option Layout := do
  let s ← s.closeAll.dropCandidate?
  some { s with keyAllowed := false }

def readDirective? (s : Layout) : Option Layout := do
  let s ← s.startsOver?
  let (directive, place) ← Directive.read? s.place
  some (s.push (.directive directive) place)

def readBoundary? (s : Layout) (boundary : Token) : Option Layout := do
  let s ← s.startsOver?
  some (s.push boundary (s.place.advance 3))

def openFlow? (s : Layout) (collection : Token) : Option Layout := do
  let s ← s.markCandidate?
  let s := { s with outer := s.candidate? :: s.outer, candidate? := none, keyAllowed := true }
  some (s.push collection (s.place.advance 1))

def closeFlow? (s : Layout) (collectionEnd : Token) : Option Layout := do
  let s ← s.dropCandidate?
  let s := match s.outer with
    | [] => s
    | candidate? :: outer => { s with candidate?, outer }
  some ({ s with keyAllowed := false }.push collectionEnd (s.place.advance 1))

def readFlowEntry? (s : Layout) : Option Layout := do
  let s ← s.dropCandidate?
  some ({ s with keyAllowed := true }.push .flowEntry (s.place.advance 1))

def readBlockEntry? (s : Layout) : Option Layout :=
  if s.inFlow || s.keyAllowed then do
    let s ← (s.openBlock .blockSequence s.place.column).dropCandidate?
    some ({ s with keyAllowed := true }.push .blockEntry (s.place.advance 1))
  else none

/-- A question mark, which makes what follows a key whatever its length. -/
def readKey? (s : Layout) : Option Layout :=
  if s.inFlow || s.keyAllowed then do
    let s ← (s.openBlock .blockMapping s.place.column).dropCandidate?
    some ({ s with keyAllowed := !s.inFlow }.push .key (s.place.advance 1))
  else none

/-- Makes the candidate a key, and opens the block that it is the first key of. -/
def confirm (s : Layout) (c : Candidate) : Layout :=
  let s := { s with candidate? := none, keyAllowed := false }
  if !s.inFlow && s.margin ≤ c.column then
    { s with margins := (c.column + 1) :: s.margins, tokens := insertAt s.tokens c.position [.key, .blockMapping] }
  else { s with tokens := insertAt s.tokens c.position [.key] }

/-- A colon: the candidate before it is a key, or else an empty text is. -/
def readValue? (s : Layout) : Option Layout :=
  match s.candidate? with
  | some c => some ((s.confirm c).push .value (s.place.advance 1))
  | none =>
    if s.inFlow || s.keyAllowed then
      let s := s.openBlock .blockMapping s.place.column
      some ({ s with keyAllowed := !s.inFlow }.push .value (s.place.advance 1))
    else none

def readAlias? (s : Layout) : Option Layout := do
  let s ← s.markCandidate?
  let (name, place) ← readName? (s.place.advance 1)
  some ({ s with keyAllowed := false }.push (.alias name) place)

def readAnchor? (s : Layout) : Option Layout := do
  let s ← s.markCandidate?
  let (name, place) ← readName? (s.place.advance 1)
  some ({ s with keyAllowed := false }.push (.anchor name) place)

def readTag? (s : Layout) : Option Layout := do
  let s ← s.markCandidate?
  let (tag, place) ← Tag.read? s.inFlow s.place
  some ({ s with keyAllowed := false }.push (.tag tag) place)

def readBlockScalar? (s : Layout) (style : Style) : Option Layout := do
  let s ← s.dropCandidate?
  let (text, place) ← Block.read? (style = .folded) s.margin s.place
  some ({ s with keyAllowed := true }.push (.scalar { text := String.ofList text, style }) place)

def readQuoted? (s : Layout) (style : Style) (quote : Char) : Option Layout := do
  let s ← s.markCandidate?
  let (text, place) ← Quoted.read? quote s.place
  some ({ s with keyAllowed := false }.push (.scalar { text := String.ofList text, style }) place)

def readPlain? (s : Layout) : Option Layout := do
  let s ← s.markCandidate?
  let part ← Plain.read? s.inFlow s.margin s.place
  some ({ s with keyAllowed := part.endsLine }.push (.scalar { text := String.ofList part.text }) part.next)

def readToken? (s : Layout) : Option Layout :=
  if s.place.column = 0 && s.place.rest.head? == some '%' then s.readDirective?
  else if s.place.atDocumentStart then s.readBoundary? .documentStart
  else if s.place.atDocumentEnd then s.readBoundary? .documentEnd
  else match s.place.rest with
    | [] => none
    | c :: rest =>
      if c == '[' then s.openFlow? .flowSequence
      else if c == '\x7b' then s.openFlow? .flowMapping
      else if c == ']' then s.closeFlow? .flowSequenceEnd
      else if c == '\x7d' then s.closeFlow? .flowMappingEnd
      else if c == ',' then s.readFlowEntry?
      else if c == '-' && atWordEnd rest then s.readBlockEntry?
      else if c == '?' && (s.inFlow || atWordEnd rest) then s.readKey?
      else if c == ':' && (s.inFlow || atWordEnd rest) then s.readValue?
      else if c == '*' then s.readAlias?
      else if c == '&' then s.readAnchor?
      else if c == '!' then s.readTag?
      else if c == '|' && !s.inFlow then s.readBlockScalar? .literal
      else if c == '>' && !s.inFlow then s.readBlockScalar? .folded
      else if c == '\'' then s.readQuoted? .singleQuoted '\''
      else if c == '"' then s.readQuoted? .doubleQuoted '"'
      else if Plain.canStart s.place.rest then s.readPlain?
      else none

/-- The tokens from here to the end of the document; `fuel` bounds them. -/
def readAll? : Nat → Layout → Option (List Token)
  | 0, _ => none
  | fuel + 1, s => do
    let s := (← s.skipGap.refreshAll?).close
    if s.place.rest.isEmpty then
      let s ← s.startsOver?
      some s.tokens.reverse
    else readAll? fuel (← s.readToken?)

end Layout

def tokens? (text : List Char) : Option (List Token) :=
  let text := unifyBreaks text
  if text.all isAllowed then Layout.readAll? (text.length + 1) { place := { rest := text } } else none

end AssetGraph.Yaml

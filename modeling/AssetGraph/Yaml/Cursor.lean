import AssetGraph.Text

/-!
# Places in a document

A document is read from a `Cursor`: the characters that are left, with the line and the column of the first of
them. `gap?` reads the blanks and line breaks between two words of a scalar, and `Gap.fold` says what they become.
-/
namespace AssetGraph.Yaml

/-- Characters that end a line once every line ends with one character. -/
def isBreak (c : Char) : Bool := c == '\n' || c == '\u2028' || c == '\u2029'

def isBlank (c : Char) : Bool := c == ' ' || c == '\t'

def isGap (c : Char) : Bool := isBlank c || isBreak c

/-- The letters of names: anchors, tag handles and directives. -/
def isNameChar (c : Char) : Bool := c.isAlphanum || c == '-' || c == '_'

/-- Characters that may stand in a document. -/
def isAllowed (c : Char) : Bool :=
  let n := c.toNat
  n == 0x09 || n == 0x0A || n == 0x0D || (0x20 ≤ n && n ≤ 0x7E) || n == 0x85 ||
    (0xA0 ≤ n && n ≤ 0xFFFD) || 0x10000 ≤ n

/-- Every line ends with one character: a carriage return, alone or before a line feed, and a next-line character
become a line feed. -/
def unifyBreaks : List Char → List Char
  | '\r' :: '\n' :: rest => '\n' :: unifyBreaks rest
  | c :: rest => (if c == '\r' || c == '\u0085' then '\n' else c) :: unifyBreaks rest
  | [] => []

def atWordEnd : List Char → Bool
  | [] => true
  | c :: _ => isGap c

/-- What is left of a document, and where that starts. -/
structure Cursor where
  rest : List Char
  line : Nat := 0
  column : Nat := 0
  deriving Repr

namespace Cursor

def advance (place : Cursor) (n : Nat) : Cursor :=
  { place with rest := place.rest.drop n, column := place.column + n }

/-- Goes on to `rest`, which is left of the same line and those after it. -/
def goTo (place : Cursor) (rest : List Char) : Cursor :=
  { place with rest, column := place.column + (place.rest.length - rest.length) }

def nextLine (place : Cursor) : Cursor := ⟨place.rest.drop 1, place.line + 1, 0⟩

/-- Goes past the characters of a class that holds no line break. -/
def skip (place : Cursor) (p : Char → Bool) : Cursor := place.advance (place.rest.takeWhile p).length

/-- Whether a line starts here with `mark` as its first word. -/
def atMark (place : Cursor) (mark : List Char) : Bool :=
  place.column == 0 && (match Text.dropStart? mark place.rest with
    | some rest => atWordEnd rest
    | none => false)

def atDocumentStart (place : Cursor) : Bool := place.atMark ['-', '-', '-']

def atDocumentEnd (place : Cursor) : Bool := place.atMark ['.', '.', '.']

def atBoundary (place : Cursor) : Bool := place.atDocumentStart || place.atDocumentEnd

/-- Goes past blanks, a comment and the line break after them, if nothing else stands on the line. -/
def finishLine? (place : Cursor) : Option Cursor :=
  let place := place.skip isBlank
  let place := if place.rest.head? = some '#' then place.skip (!isBreak ·) else place
  match place.rest with
  | [] => some place
  | c :: _ => if isBreak c then some place.nextLine else none

end Cursor

/-- Blanks up to the end of a line and the line breaks after them. -/
structure Gap where
  blanks : List Char := []
  breaks : List Char := []
  deriving Repr

namespace Gap

/-- Blanks within a line stay. Of line breaks the first is left out if it is a line feed; a single one becomes a
space. -/
def fold (gap : Gap) : List Char :=
  match gap.breaks with
  | [] => gap.blanks
  | '\n' :: [] => [' ']
  | '\n' :: breaks => breaks
  | breaks => breaks

end Gap

/-- The gap at the start of `rest`. Blanks count only before the first break, while `onLine`; after it a tab left
of `margin` is an error. -/
def gapFrom? (margin line column : Nat) (onLine : Bool) (rest : List Char) : Option (Gap × Cursor) :=
  match rest with
  | [] => some ({}, ⟨[], line, column⟩)
  | c :: after =>
    if isBlank c then
      if !onLine && c == '\t' && column < margin then none
      else
        (gapFrom? margin line (column + 1) onLine after).map fun (gap, place) =>
          (if onLine then { gap with blanks := c :: gap.blanks } else gap, place)
    else if isBreak c then
      (gapFrom? margin (line + 1) 0 false after).map fun (gap, place) =>
        ({ gap with breaks := c :: gap.breaks }, place)
    else some ({}, ⟨rest, line, column⟩)

def Cursor.gap? (place : Cursor) (margin : Nat) : Option (Gap × Cursor) :=
  gapFrom? margin place.line place.column true place.rest

end AssetGraph.Yaml

import AssetGraph.Yaml.Cursor

/-!
# Plain scalars

A plain scalar is a text without quotes. It goes on over blanks and line breaks up to a comment, a colon at the end
of a word, a document boundary, a line that is not indented far enough, or a mark of the flow collection around it.
`canStart` and `isPlain` tell when a text may be written this way.
-/
namespace AssetGraph.Yaml

/-- Brackets and commas, which separate the parts of a flow collection. -/
def isFlowMark (c : Char) : Bool := [',', '[', ']', '\x7b', '\x7d'].contains c

/-- Characters that start something other than a plain scalar, wherever they stand. -/
def isIndicator (c : Char) : Bool :=
  isFlowMark c || ['#', '&', '*', '!', '|', '>', '\'', '"', '%', '@', '\x60'].contains c

namespace Plain

/-- A colon before one of these is an error in a flow collection. -/
def refusesColon : List Char → Bool
  | [] => false
  | c :: _ => isFlowMark c || c == '?'

/-- The characters up to the end of a word, and those after it. -/
def takeWord? (inFlow : Bool) (cs : List Char) : Option (List Char × List Char) :=
  match cs with
  | [] => some ([], [])
  | c :: rest =>
    if isGap c then some ([], cs)
    else if inFlow && c == ':' && refusesColon rest then none
    else if (c == ':' && atWordEnd rest) || (inFlow && isFlowMark c) then some ([], cs)
    else (takeWord? inFlow rest).map fun (word, rest) => (c :: word, rest)

/-- A plain scalar, or the end of one. -/
structure Part where
  text : List Char
  /-- Where the document goes on. -/
  next : Cursor
  /-- Whether a line break follows the last word. -/
  endsLine : Bool
  deriving Repr

/-- The words that follow a gap, with what the gap becomes; `fuel` bounds them. -/
def takeWords? (inFlow : Bool) (margin : Nat) : Nat → Gap → Cursor → Option Part
  | 0, _, _ => none
  | fuel + 1, gap, place =>
    let stop : Part := ⟨[], place, !gap.breaks.isEmpty⟩
    if place.atBoundary || place.rest.head? == some '#' then some stop
    else do
      let (word, rest) ← takeWord? inFlow place.rest
      if word.isEmpty then some stop
      else
        let place : Cursor := { place with rest, column := place.column + word.length }
        let text := gap.fold ++ word
        if atWordEnd rest then
          let (gap, place) ← place.gap? margin
          if !inFlow && place.column < margin then some ⟨text, place, !gap.breaks.isEmpty⟩
          else
            let part ← takeWords? inFlow margin fuel gap place
            some { part with text := text ++ part.text }
        else some ⟨text, place, false⟩

/-- A plain scalar. Outside flow collections its lines after the first start at column `margin` or further. -/
def read? (inFlow : Bool) (margin : Nat) (place : Cursor) : Option Part :=
  takeWords? inFlow margin (place.rest.length + 1) {} place

/-- Whether a plain scalar may start here: not with an indicator, and with a hyphen, colon or question mark only if
the word goes on. -/
def canStart : List Char → Bool
  | [] => false
  | c :: rest =>
    !(isGap c || isIndicator c) && !(['-', '?', ':'].contains c && atWordEnd rest)

/-- Whether nothing after the start of a text would end it. -/
def goesOn : List Char → Bool
  | [] => true
  | c :: rest =>
    !(c == ':' && atWordEnd rest) && !(isGap c && rest.head? == some '#') && goesOn rest

end Plain
end AssetGraph.Yaml

import AssetGraph.Numeral
import AssetGraph.Yaml.Cursor
import AssetGraph.Yaml.Token

/-!
# Names, tags and directives

An anchor has a name. A tag is written in full between angle brackets, or as a handle and a suffix; what a handle stands
for is told by directives at the head of the document. Escaped octets of a tag are kept as one character each.
-/
namespace AssetGraph.Yaml

def readName? (place : Cursor) : Option (String × Cursor) :=
  let name := place.rest.takeWhile isNameChar
  let next := place.advance name.length
  let ends := atWordEnd next.rest ||
    next.rest.head?.any ['?', ':', ',', ']', '\x7d', '%', '@', '\x60'].contains
  if name.isEmpty || !ends then none else some (String.ofList name, next)

namespace Tag

/-- Characters of a tag; commas and brackets only where the tag is written in full. -/
def isUriChar (inFull : Bool) (c : Char) : Bool :=
  isNameChar c || ";/?:@&=+$.!~*'()".toList.contains c || (inFull && [',', '[', ']'].contains c)

/-- An octet as a percent sign and two hexadecimal digits. -/
def takeOctet? : List Char → Option (Nat × List Char)
  | '%' :: high :: low :: rest => (Numeral.read? 16 [high, low]).map fun n => (n, rest)
  | _ => none

/-- How many octets follow the first one of a character. -/
def octetsAfter? (first : Nat) : Option Nat :=
  if first < 0x80 then some 0
  else if first < 0xC0 then none
  else if first < 0xE0 then some 1
  else if first < 0xF0 then some 2
  else if first < 0xF8 then some 3
  else none

def takeOctets? : Nat → List Char → Option (List Char × List Char)
  | 0, cs => some ([], cs)
  | n + 1, cs => do
    let (octet, cs) ← takeOctet? cs
    if 0x80 ≤ octet ∧ octet < 0xC0 then
      let (octets, cs) ← takeOctets? n cs
      some (Char.ofNat octet :: octets, cs)
    else none

/-- Characters and escaped octets of a tag; `fuel` bounds them. -/
def takeUri? (inFull : Bool) : Nat → List Char → Option (List Char × List Char)
  | 0, _ => none
  | _ + 1, [] => some ([], [])
  | fuel + 1, c :: rest =>
    if c == '%' then do
      let (first, rest) ← takeOctet? (c :: rest)
      let (octets, rest) ← takeOctets? (← octetsAfter? first) rest
      let (more, rest) ← takeUri? inFull fuel rest
      some (Char.ofNat first :: octets ++ more, rest)
    else if isUriChar inFull c then
      (takeUri? inFull fuel rest).map fun (more, rest) => (c :: more, rest)
    else some ([], c :: rest)

def readUri? (inFull : Bool) (cs : List Char) : Option (List Char × List Char) :=
  (takeUri? inFull (cs.length + 1) cs).filter fun (uri, _) => !uri.isEmpty

/-- An exclamation mark, with a name and another mark after it if the handle is a named one. -/
def takeHandle? : List Char → Option (List Char × List Char)
  | '!' :: rest =>
    let name := rest.takeWhile isNameChar
    match rest.drop name.length with
    | '!' :: rest => some ('!' :: name ++ ['!'], rest)
    | rest => some ('!' :: name, rest)
  | _ => none

/-- Whether a handle is `!!` or has a name between its marks. -/
def isClosed (handle : List Char) : Bool := handle.length ≥ 2 && handle.getLast? == some '!'

def takeTag? : List Char → Option (TagText × List Char)
  | '!' :: '<' :: rest => do
    let (uri, rest) ← readUri? true rest
    match rest with
    | '>' :: rest => some (⟨"", String.ofList uri⟩, rest)
    | _ => none
  | cs => do
    let (handle, rest) ← takeHandle? cs
    if isClosed handle then
      let (uri, rest) ← readUri? false rest
      some (⟨String.ofList handle, String.ofList uri⟩, rest)
    else
      let (uri, rest) ← takeUri? false (rest.length + 1) rest
      let suffix := handle.drop 1 ++ uri
      some (if suffix.isEmpty then ⟨"", "!"⟩ else ⟨"!", String.ofList suffix⟩, rest)

/-- A tag, which ends where a word ends or, in a flow collection, at a comma. -/
def read? (inFlow : Bool) (place : Cursor) : Option (TagText × Cursor) := do
  let (tag, rest) ← takeTag? place.rest
  if atWordEnd rest || (inFlow && rest.head? == some ',') then some (tag, place.goTo rest) else none

end Tag

namespace Directive

def takeNumber? (place : Cursor) : Option (Nat × Cursor) :=
  let digits := place.rest.takeWhile Char.isDigit
  if 9 < digits.length then none
  else (Numeral.read? 10 digits).map fun n => (n, place.advance digits.length)

def takeVersion? (place : Cursor) : Option (Directive × Cursor) := do
  let (major, place) ← takeNumber? place
  if place.rest.head? == some '.' then
    let (minor, place) ← takeNumber? (place.advance 1)
    some (.version major minor, place)
  else none

/-- A handle and the start of the tags that it stands for. -/
def takeTagStart? (place : Cursor) : Option (Directive × Cursor) := do
  let (handle, rest) ← Tag.takeHandle? place.rest
  if (handle == ['!'] || Tag.isClosed handle) && rest.head?.any isBlank then
    let place := (place.goTo rest).skip isBlank
    let (start, rest) ← Tag.readUri? true place.rest
    if atWordEnd rest then some (.tag (String.ofList handle) (String.ofList start), place.goTo rest) else none
  else none

/-- A directive, with its line, from its percent sign on. -/
def read? (place : Cursor) : Option (Directive × Cursor) := do
  let place := place.advance 1
  let name := place.rest.takeWhile isNameChar
  let place := place.advance name.length
  if !atWordEnd place.rest then none
  else
    let place := place.skip isBlank
    let (directive, place) ←
      if name = "YAML".toList then takeVersion? place
      else if name = "TAG".toList then takeTagStart? place
      else none
    some (directive, ← place.finishLine?)

end Directive
end AssetGraph.Yaml

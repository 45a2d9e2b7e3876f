import AssetGraph.Numeral
import AssetGraph.Yaml.Cursor

/-!
# Quoted scalars

Between single quotes a quote is written twice and every other character stands for itself. Between double quotes a
backslash starts an escape. In both, a line break is folded as in a plain scalar.
-/
namespace AssetGraph.Yaml

/-- Characters that are written as they are; the others, all of them below `U+10000`, only have an escape. -/
def isPrintable (c : Char) : Bool :=
  let n := c.toNat
  n == 0x0A || (0x20 ≤ n && n ≤ 0x7E) || (0xA0 ≤ n && n ≤ 0xFFFD && n ≠ 0xFEFF) || 0x10000 ≤ n

namespace Quoted

def escapes : List (Char × Char) :=
  [('0', '\x00'), ('a', '\x07'), ('b', '\x08'), ('t', '\t'), ('n', '\n'), ('v', '\x0b'), ('f', '\x0c'),
    ('r', '\r'), ('e', '\x1b'), ('"', '"'), ('\\', '\\'), ('N', '\u0085'), ('_', '\u00a0'), ('L', '\u2028'),
    ('P', '\u2029'), (' ', ' '), ('/', '/'), ('\t', '\t')]

/-- How many hexadecimal digits follow the letter of an escape by number. -/
def escapeLength? : Char → Option Nat
  | 'x' => some 2
  | 'u' => some 4
  | 'U' => some 8
  | _ => none

/-- The character of an escape, and how many characters after the backslash it takes. -/
def readEscape? : List Char → Option (Char × Nat)
  | [] => none
  | c :: rest =>
    match escapes.lookup c with
    | some d => some (d, 1)
    | none => do
      let length ← escapeLength? c
      let digits := rest.take length
      let n ← if digits.length = length then Numeral.read? 16 digits else none
      if n.isValidChar then some (Char.ofNat n, length + 1) else none

/-- The text up to the closing quote, and where the document goes on; `fuel` bounds the characters. -/
def takeText? (quote : Char) : Nat → Cursor → Option (List Char × Cursor)
  | 0, _ => none
  | fuel + 1, place =>
    let goOn (text : List Char) (place : Cursor) : Option (List Char × Cursor) :=
      (takeText? quote fuel place).map fun (more, place) => (text ++ more, place)
    if place.atBoundary then none
    else match place.rest with
      | [] => none
      | c :: rest =>
        if isGap c then do
          let (gap, place) ← place.gap? 0
          goOn gap.fold place
        else if c == quote then
          if quote == '\'' && rest.head? == some '\'' then goOn ['\''] (place.advance 2)
          else some ([], place.advance 1)
        else if quote == '"' && c == '\\' then
          if rest.head?.any isBreak then do
            let (gap, place) ← gapFrom? 0 (place.line + 1) 0 false (rest.drop 1)
            goOn gap.breaks place
          else do
            let (d, length) ← readEscape? rest
            goOn [d] (place.advance (length + 1))
        else goOn [c] (place.advance 1)

def read? (quote : Char) (place : Cursor) : Option (List Char × Cursor) :=
  takeText? quote (place.rest.length + 1) (place.advance 1)

/-- Text between single quotes. A line break in it is kept, and the line after it starts with `indent` spaces. -/
def writeSingle (indent : Nat) (text : List Char) : List Char :=
  '\'' :: lines false text ++ ['\'']
where
  lines (afterBreak : Bool) : List Char → List Char
    | [] => if afterBreak then List.replicate indent ' ' else []
    | c :: rest =>
      if isBreak c then c :: lines true rest
      else
        (if afterBreak then List.replicate indent ' ' else []) ++
          (if c == '\'' then ['\'', '\''] else [c]) ++ lines false rest

def escapeLetter? (c : Char) : Option Char :=
  (escapes.find? fun (_, d) => d == c).map (·.1)

/-- A number in upper-case hexadecimal with at least `width` digits. -/
def hex (width n : Nat) : List Char :=
  let digits := (Numeral.render 16 n).map Char.toUpper
  List.replicate (width - digits.length) '0' ++ digits

def escape (c : Char) : List Char :=
  if isPrintable c && !isBreak c && c != '"' && c != '\\' then [c]
  else match escapeLetter? c with
    | some letter => ['\\', letter]
    | none =>
      let n := c.toNat
      if n ≤ 0xFF then '\\' :: 'x' :: hex 2 n else '\\' :: 'u' :: hex 4 n

def writeDouble (text : List Char) : List Char :=
  '"' :: text.flatMap escape ++ ['"']

end Quoted
end AssetGraph.Yaml

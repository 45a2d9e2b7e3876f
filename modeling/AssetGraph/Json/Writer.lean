import AssetGraph.Json
import AssetGraph.Text

/-!
# JSON text, written

`Json.render` writes a value on one line without blanks. Quotes, backslashes and control characters are escaped and
every other character stands for itself.
-/
namespace AssetGraph.Json

def escape (c : Char) : List Char :=
  if c = '"' then ['\\', '"']
  else if c = '\\' then ['\\', '\\']
  else if c = '\n' then ['\\', 'n']
  else if c = '\r' then ['\\', 'r']
  else if c = '\t' then ['\\', 't']
  else if c.toNat < 0x20 then
    '\\' :: 'u' :: '0' :: '0' :: Numeral.digit (c.toNat / 16) :: [Numeral.digit (c.toNat % 16)]
  else [c]

def quote (s : String) : String :=
  String.ofList ('"' :: s.toList.flatMap escape ++ ['"'])

mutual

def render : Json → String
  | null => "null"
  | bool b => boolText b
  | number n => String.ofList n.render
  | string s => quote s
  | array items => "[" ++ Text.join "," (renderItems items) ++ "]"
  | object members => "\x7b" ++ Text.join "," (renderMembers members) ++ "\x7d"

def renderItems : List Json → List String
  | [] => []
  | item :: rest => item.render :: renderItems rest

def renderMembers : List (String × Json) → List String
  | [] => []
  | (name, value) :: rest => (quote name ++ ":" ++ value.render) :: renderMembers rest

end

end AssetGraph.Json

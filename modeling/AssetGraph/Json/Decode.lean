import AssetGraph.Json

/-!
# Reading records out of JSON values

A record is written as an object of named members, or as an array of its fields in order. `fields?` gives the
members of a record with a fixed list of fields, and `decodeRecord` fills a record from a table of fields that may
all be missing; of several faults the first in the order of the members counts.
-/
namespace AssetGraph

inductive DecodeError where
  | shape
  | unknownClass (name : String)
  | notACard
  | shortCardProperty
  deriving DecidableEq, Repr

/-- The text for a fault; a value of the wrong shape has none. -/
def DecodeError.message? : DecodeError → Option String
  | shape => none
  | unknownClass name => some ("unknown objectClassName '" ++ name ++ "'")
  | notACard => some "expected [\"vcard\", [...]]"
  | shortCardProperty => some "jCard property needs at least 4 elements"

abbrev Decoded (α : Type) := Except DecodeError α

namespace Json

def decodeString : Json → Decoded String
  | string s => .ok s
  | _ => .error .shape

def decodeBool : Json → Decoded Bool
  | bool b => .ok b
  | _ => .error .shape

def decodeNat (bound : Nat) : Json → Decoded Nat
  | number (.integer n) => if 0 ≤ n ∧ n < bound then .ok n.toNat else .error .shape
  | _ => .error .shape

def decodeList {α : Type} (decode : Json → Decoded α) : Json → Decoded (List α)
  | array items => items.mapM decode
  | _ => .error .shape

def decodeOption {α : Type} (decode : Json → Decoded α) : Json → Decoded (Option α)
  | null => .ok none
  | value => (decode value).map some

/-- The values of the named fields, by name from an object and by position from an array. -/
def fields? (names : List String) : Json → Option (List (Option Json))
  | object members => some (names.map fun name => (members.find? fun m => m.1 = name).map Prod.snd)
  | array items =>
    if items.length ≤ names.length then
      some (items.map some ++ List.replicate (names.length - items.length) none)
    else none
  | _ => none

/-- A named field of a record and how its value is put there. -/
structure RecordField (α : Type) where
  name : String
  put : Json → α → Decoded α

/-- Puts members one by one, passing over unknown names. -/
def putMembers {α : Type} (table : List (RecordField α)) (members : List (String × Json)) (start : α) : Decoded α :=
  members.foldlM (fun record (name, value) =>
    match table.find? fun field => field.name = name with
    | some field => field.put value record
    | none => .ok record) start

def putItems {α : Type} : List (RecordField α) → List Json → α → Decoded α
  | _, [], record => .ok record
  | [], _ :: _, _ => .error .shape
  | field :: table, item :: items, record => field.put item record >>= putItems table items

def decodeRecord {α : Type} (table : List (RecordField α)) (start : α) : Json → Decoded α
  | object members => putMembers table members start
  | array items => putItems table items start
  | _ => .error .shape

end Json
end AssetGraph

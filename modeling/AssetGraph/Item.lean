import AssetGraph.Edge
import AssetGraph.Json
import AssetGraph.Keyed

/-!
# Items

An item is a node of the graph: attributes, one of which identifies it within its type and scope, and edges.
`Attributes.set` never stores null.
-/
namespace AssetGraph

abbrev Attributes := Keyed Json

namespace Attributes

/-- Sets an attribute; null leaves the attributes as they are. -/
def set (as : Attributes) (name : String) : Json → Attributes
  | .null => as
  | value => as.insert name value

/-- The attributes of a list of fields, without the null ones; later fields win. -/
def ofFields (fields : List (String × Json)) : Attributes :=
  fields.foldl (fun as field => set as field.1 field.2) Keyed.empty

end Attributes

structure Item where
  type : String
  scope : String
  uniqueAttribute : String
  attributes : Attributes
  edges : List Edge

namespace Item

/-- The value that identifies the item; only a text, a number or a truth value can. -/
def uniqueValue? (item : Item) : Option String :=
  match item.attributes.get? item.uniqueAttribute with
  | some (.string s) => some s
  | some (.number n) => some (String.ofList n.render)
  | some (.bool b) => some (Json.boolText b)
  | _ => none

def reference? (item : Item) : Option String :=
  item.uniqueValue?.map fun value => item.type ++ "/" ++ item.scope ++ "/" ++ value

inductive Defect where
  | noType
  | noScope (type : String)
  | noUniqueAttribute (type : String)
  | noUniqueValue (type name : String)
  deriving DecidableEq, Repr

def Defect.message : Defect → String
  | noType => "Item has no type"
  | noScope type => "Item of type '" ++ type ++ "' has no scope"
  | noUniqueAttribute type => "Item of type '" ++ type ++ "' has no unique attribute name"
  | noUniqueValue type name =>
    "Item of type '" ++ type ++ "' has no value for unique attribute '" ++ name ++ "'"

/-- The first thing that keeps the item from being identified. -/
def defect? (item : Item) : Option Defect :=
  if item.type = "" then some .noType
  else if item.scope = "" then some (.noScope item.type)
  else if item.uniqueAttribute = "" then some (.noUniqueAttribute item.type)
  else
    match item.uniqueValue? with
    | some value => if value = "" then some (.noUniqueValue item.type item.uniqueAttribute) else none
    | none => some (.noUniqueValue item.type item.uniqueAttribute)

end Item
end AssetGraph

import AssetGraph.Item
import AssetGraph.Json.Decode

/-!
# Items as JSON

How queries, edges and items are written as JSON and read back. Reading also accepts each record as an array of its
fields, and an item without edges may leave them out.
-/
namespace AssetGraph

open Json

namespace Method

def toJson (m : Method) : Json := string m.word

/-- A method is its word, or an object whose one member has that name and says null. -/
def decode : Json → Decoded Method
  | string w => (ofWord? w).elim (.error .shape) .ok
  | object [(w, null)] => (ofWord? w).elim (.error .shape) .ok
  | _ => .error .shape

end Method

namespace Query

def toJson (q : Query) : Json :=
  object [("method", q.method.toJson), ("query", string q.text), ("scope", string q.scope), ("type", string q.type)]

def decode (j : Json) : Decoded Query :=
  match fields? ["type", "method", "query", "scope"] j with
  | some [some type, some method, some text, some scope] => do
    return ⟨← decodeString type, ← Method.decode method, ← decodeString text, ← decodeString scope⟩
  | _ => .error .shape

end Query

namespace Propagation

def toJson (p : Propagation) : Json := object [("in", .bool p.inward), ("out", .bool p.outward)]

def decode (j : Json) : Decoded Propagation :=
  match fields? ["in", "out"] j with
  | some [some inward, some outward] => do return ⟨← decodeBool inward, ← decodeBool outward⟩
  | _ => .error .shape

end Propagation

namespace Edge

def toJson (e : Edge) : Json :=
  object [("blastPropagation", e.propagation.toJson), ("query", e.query.toJson)]

def decode (j : Json) : Decoded Edge :=
  match fields? ["query", "blastPropagation"] j with
  | some [some query, some propagation] => do return ⟨← Query.decode query, ← Propagation.decode propagation⟩
  | _ => .error .shape

end Edge

namespace Attributes

def toJson (as : Attributes) : Json := object as.entries

/-- Takes the members as they are, null ones included. -/
def decode : Json → Decoded Attributes
  | object members => .ok (Keyed.ofList members)
  | _ => .error .shape

end Attributes

namespace Item

def toJson (item : Item) : Json :=
  object [("attributes", Attributes.toJson item.attributes),
    ("linkedItemQueries", array (item.edges.map Edge.toJson)),
    ("scope", string item.scope), ("type", string item.type), ("uniqueAttribute", string item.uniqueAttribute)]

def decode (j : Json) : Decoded Item :=
  match fields? ["type", "scope", "uniqueAttribute", "attributes", "linkedItemQueries"] j with
  | some [some type, some scope, some unique, some attributes, edges] => do
    return ⟨← decodeString type, ← decodeString scope, ← decodeString unique, ← Attributes.decode attributes,
      ← (edges.map (decodeList Edge.decode)).getD (.ok [])⟩
  | _ => .error .shape

end Item
end AssetGraph

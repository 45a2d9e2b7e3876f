import AssetGraph.Proofs.Rdap.Attributes
import AssetGraph.Proofs.Rdap.Shown

/-!
# Registry fields as attributes

Every attribute of an object shows one member of the value that the object was read from. Each field of a table replaces the value of
one attribute at most, so what a whole value leaves under a name is what its member of that name says.
-/
namespace AssetGraph.Rdap

open Json

section Tables

variable {α β : Type} {fields : α → List (String × Json)} {own : α → List (String × Json)} {name : String}
  {decode : Json → Decoded β}

variable {table : List (RecordField α)} {start a : α} {members : List (String × Json)}

end Tables

namespace Object

variable {j : Json} {o : Object} {name : String}

def record : Object → Record
  | ipNetwork n => n.toRecord
  | domain d => d.toRecord
  | entity e => e.toRecord
  | nameserver n => n.toRecord
  | autnum a => a.toRecord

end Object
end AssetGraph.Rdap

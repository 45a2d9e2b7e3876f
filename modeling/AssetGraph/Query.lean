/-!
# Queries

A query asks one item type for items in a scope by one of three methods. `Identity` adds the source that answers it;
two queries with one identity are the same request.
-/
namespace AssetGraph

/-- The scope of everything that registries and name servers know. -/
def globalScope : String := "global"

inductive Method where
  | get
  | list
  | search
  deriving DecidableEq, Repr

namespace Method

def word : Method → String
  | get => "GET"
  | list => "LIST"
  | search => "SEARCH"

/-- The method with this word; the words are case-sensitive. -/
def ofWord? (w : String) : Option Method :=
  [get, list, search].find? fun m => m.word = w

end Method

/-- A query for items of one type; `text` is what to get or search for. -/
structure Query where
  type : String
  method : Method
  text : String
  scope : String
  deriving DecidableEq, Repr

structure Identity where
  source : String
  method : Method
  scope : String
  type : String
  text : String
  deriving DecidableEq, Repr

def Identity.render (i : Identity) : String :=
  i.source ++ "/" ++ i.method.word ++ "/" ++ i.scope ++ "/" ++ i.type ++ "/" ++ i.text

end AssetGraph

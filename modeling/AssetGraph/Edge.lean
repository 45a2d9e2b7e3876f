import AssetGraph.ItemType
import AssetGraph.Query

/-!
# Edges

An edge of an item is a query that finds a related item, with the directions in which a change may travel.
-/
namespace AssetGraph

/-- Where a change travels: `inward` from the target to the item, `outward` from the item to the target. -/
structure Propagation where
  inward : Bool
  outward : Bool
  deriving DecidableEq, Repr

namespace Propagation

/-- The edge only informs. -/
def inert : Propagation := ⟨false, false⟩

/-- Item and target are one thing seen from two sides. -/
def both : Propagation := ⟨true, true⟩

def inbound : Propagation := ⟨true, false⟩

def outbound : Propagation := ⟨false, true⟩

end Propagation

structure Edge where
  query : Query
  propagation : Propagation
  deriving DecidableEq, Repr

namespace Edge

def getting (type : ItemType) (text scope : String) (propagation : Propagation) : Edge :=
  ⟨⟨type.name, .get, text, scope⟩, propagation⟩

def searching (type : ItemType) (text scope : String) (propagation : Propagation) : Edge :=
  ⟨⟨type.name, .search, text, scope⟩, propagation⟩

end Edge
end AssetGraph

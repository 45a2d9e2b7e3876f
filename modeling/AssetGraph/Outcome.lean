import AssetGraph.Item
import AssetGraph.QueryError

/-!
# Outcomes

The outcome of a query is a list of items or a classified error.
-/
namespace AssetGraph

/-- What a query comes to. -/
abbrev Outcome := Except QueryError (List Item)

namespace Outcome

def single (missing : QueryError) : Outcome → Except QueryError Item
  | .ok (item :: _) => .ok item
  | .ok [] => .error missing
  | .error e => .error e

def ofItem : Except QueryError Item → Outcome
  | .ok item => .ok [item]
  | .error e => .error e

/-- Whether the outcome may be kept: every success, and the errors that the world outside decided. -/
def isCacheable : Outcome → Bool
  | .ok _ => true
  | .error e => e.isCacheable

end Outcome
end AssetGraph

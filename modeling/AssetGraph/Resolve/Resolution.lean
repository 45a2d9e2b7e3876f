import AssetGraph.Resolve.Cause
import AssetGraph.Resolve.Plan

/-!
# Resolutions

The frames that the resolutions of all item types share: a plan that may fail with a cause, the key under which an
outcome is kept, and the order of looking into the cache, resolving and keeping.
-/
namespace AssetGraph.Resolve

/-- A plan that may fail. -/
abbrev Resolution (α : Type) := ExceptT Cause Plan α

/-- A query for one type, with the lifetime of what it finds. -/
structure Task where
  type : ItemType
  method : Method
  scope : String
  text : String
  ignoreCache : Bool
  ttl : Nat

namespace Task

/-- The identity under which the outcome is kept. -/
def key (t : Task) : Identity := ⟨t.type.source, t.method, t.scope, t.type.name, t.text⟩

def failure (t : Task) (c : Cause) : QueryError := c.within t.type t.scope

def outcome (t : Task) : Except Cause (List Item) → Outcome
  | .ok items => .ok items
  | .error c => .error (t.failure c)

/-- The kept outcome, or else the outcome of a resolution, which is then kept. -/
def cached (t : Task) (resolve : Resolution (List Item)) : Plan Outcome :=
  .lookUp t.key t.ignoreCache fun
    | some outcome => .done outcome
    | none => do
      let result ← resolve.run
      .keep t.key (t.outcome result) t.ttl (.done (t.outcome result))

def cachedItem (t : Task) (missing : Cause) (resolve : Resolution (List Item)) : Plan (Except QueryError Item) := do
  let outcome ← t.cached resolve
  return outcome.single (t.failure missing)

/-- The one item of the kept outcome; nothing is resolved. -/
def recalledItem (t : Task) (missing : Cause) : Plan (Except QueryError Item) :=
  .lookUp t.key t.ignoreCache fun
    | some outcome => .done (outcome.single (t.failure missing))
    | none => .done (.error (t.failure missing))

end Task

def askRegistry (r : Rdap.Request) : Resolution Rdap.Response := do
  match ← (Plan.ask (.rdap r) .done : Plan (Except Rdap.ClientError Rdap.Response)) with
  | .ok response => return response
  | .error e => throw (.registry e)

def askNameServer (name : String) (type : Dns.RecordType) : Resolution (List Dns.Record) := do
  match ← (Plan.ask (.dns ⟨name, type⟩) .done : Plan (Except Dns.ClientError (List Dns.Record))) with
  | .ok records => return records
  | .error e => throw (.nameServer e)

def askWebServer (url : String) : Resolution Http.Response := do
  match ← (Plan.ask (.http url) .done : Plan (Except Http.ClientError Http.Response)) with
  | .ok response => return response
  | .error e => throw (.webServer e)

end AssetGraph.Resolve

import AssetGraph.Address.Item
import AssetGraph.Address.ReverseName
import AssetGraph.Dns.Answers
import AssetGraph.Http.Item
import AssetGraph.Resolve.Resolution

/-!
# Resolving names, pages and addresses

Names are resolved to aliases and addresses, and addresses back to names where reverse lookup is on. A page is asked
for its head. An address describes itself: nothing is asked and nothing kept.
-/
namespace AssetGraph.Resolve

namespace Names

/-- The items of the IPv4 and then the IPv6 answers for a name. -/
def forward (text : String) : Resolution (List Item) := do
  let name := Dns.qualified text
  let v4 ← askNameServer name .a
  let v6 ← askNameServer name .aaaa
  if (v4 ++ v6).isEmpty then throw (.nothingFound "DNS records" text)
  else return (Dns.Answers.ofList (v4 ++ v6)).items

/-- The items of all names that pointer records point to. -/
def forwardAll : List Dns.Record → Resolution (List Item)
  | [] => return []
  | r :: rest =>
    match r.data with
    | .ptr target => do
      let items ← forward target
      let more ← forwardAll rest
      return items ++ more
    | _ => forwardAll rest

def reverse (a : Address) : Resolution (List Item) := do
  forwardAll (← askNameServer a.reverseName .ptr)

/-- The first item of a name, which is all that is kept. -/
def get (t : Task) : Plan (Except QueryError Item) :=
  if (Address.parse? t.text).isSome then .done (.error (t.failure (.alreadyAnAddress t.text)))
  else
    t.cachedItem (.nothingFound "DNS records" t.text) do
      let items ← forward t.text
      return items.take 1

def list (_ : Task) : Plan Outcome := .done (.ok [])

/-- The items of a name, or of an address when addresses are looked up in reverse. -/
def search (t : Task) (reverseLookup : Bool) : Plan Outcome :=
  match Address.parse? t.text with
  | some a => if reverseLookup then t.cached (reverse a) else .done (.ok [])
  | none => t.cached (forward t.text)

end Names

namespace Pages

def get (t : Task) : Plan (Except QueryError Item) :=
  match Http.Target.parse? t.text with
  | none => .done (.error (t.failure (.notAWebUrl t.text)))
  | some target =>
    t.cachedItem (.noResponse t.text) do
      let response ← askWebServer t.text
      return [Http.responseItem t.scope t.text target response]

def list (_ : Task) : Plan Outcome := .done (.ok [])

end Pages

namespace Addresses

def get (t : Task) : Plan (Except QueryError Item) :=
  match Address.parse? t.text with
  | some a => .done (.ok (a.item t.scope))
  | none => .done (.error (t.failure (.notAnAddress t.text)))

def list (_ : Task) : Plan Outcome := .done (.ok [])

end Addresses
end AssetGraph.Resolve

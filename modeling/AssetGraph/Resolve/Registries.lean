import AssetGraph.Dns.Name
import AssetGraph.Network.Covering
import AssetGraph.Rdap.Attributes
import AssetGraph.Rdap.Edges
import AssetGraph.Resolve.Resolution

/-!
# Resolving registry objects

The five types of registry object. A network is searched by an address or a network inside and remembered for all
its addresses; a domain by a host name, asking for ever shorter names; entities and nameservers by their URLs; an
entity is got by its handle and an autonomous system by its number.
-/
namespace AssetGraph.Resolve

open Rdap

/-- The object of a response, if it is of the expected class. -/
def objectOf {α : Type} (expected : String) (select : Object → Option α) (missing : Cause) (r : Response) :
    Resolution α :=
  match r.object with
  | none => throw missing
  | some o =>
    match select o with
    | some a => return a
    | none => throw (.otherClass expected o.className)

def Task.item (t : Task) (uniqueAttribute : String) (attributes : Attributes) (edges : List Edge) : Item :=
  { type := t.type.name, scope := t.scope, uniqueAttribute, attributes, edges }

def Task.fail (t : Task) {α : Type} (c : Cause) : Plan (Except QueryError α) :=
  .done (.error (t.failure c))

namespace IpNetworks

inductive Target where
  | address (a : Address)
  | network (n : Network)

def Target.parse? (text : String) : Option Target :=
  match Address.parse? text with
  | some a => some (.address a)
  | none =>
    match Network.parse text with
    | .ok n => some (.network n)
    | .error _ => none

def Target.find : Target → Plan (Option IpNetwork)
  | address a => .findAddress a .done
  | network n => .findNetwork n .done

/-- Asks for the allocation and remembers it for every address in it. -/
def fetch (t : Task) : Resolution IpNetwork := do
  let response ← askRegistry ⟨.ipNetwork, t.text, none⟩
  let n ← objectOf "ip network" (fun | .ipNetwork n => some n | _ => none) (.nothingFound "IP Network" t.text) response
  match Network.covering n.startAddress n.endAddress with
  | .error e => throw (.badRange e)
  | .ok covering =>
    (Plan.remember covering n t.ttl (.done ()) : Plan Unit)
    return n

def resolve (t : Task) : Resolution (List Item) := do
  match Target.parse? t.text with
  | none => throw (.notARange t.text)
  | some target =>
    let n ← match ← (target.find : Plan (Option IpNetwork)) with
      | some n => pure n
      | none => fetch t
    return [t.item "handle" n.attributes n.edges]

def get (t : Task) : Plan (Except QueryError Item) := t.recalledItem (.cannotGet "IP networks")

def list (t : Task) : Plan Outcome := t.fail (.cannotList "IP networks" .search)

def search (t : Task) : Plan Outcome := t.cached (resolve t)

end IpNetworks

namespace Domains

/-- A domain that a host belongs to, and how it was found. -/
structure Found where
  candidate : String
  domain : Domain
  urls : List String

/-- Asks for candidates in turn; the first that the registry answers decides. -/
def walk (name : String) : List String → Resolution Found
  | [] => throw (.nothingFound "domain" name)
  | candidate :: rest => do
    match ← (Plan.ask (.rdap ⟨.domain, candidate, none⟩) .done : Plan (Except ClientError Response)) with
    | .error _ => walk name rest
    | .ok response =>
      let domain ← objectOf "domain" (fun | .domain d => some d | _ => none) (.noDomainObject candidate) response
      return ⟨candidate, domain, response.urls⟩

def find (name : String) : Resolution Found := walk name (Dns.candidates name)

def resolve (t : Task) : Resolution (List Item) := do
  let found ← find t.text
  return [t.item "handle" found.domain.attributes (found.domain.edges found.urls)]

def get (t : Task) : Plan (Except QueryError Item) := t.fail (.cannotGet "Domains")

def list (t : Task) : Plan Outcome := t.fail (.cannotList "Domains" .search)

def search (t : Task) : Plan Outcome := t.cached (resolve t)

end Domains

/-- The parts of a registry URL that leads to an object of the expected kind. -/
def urlOf (expected : Kind) (text : String) : Resolution Url :=
  match Url.parse? text with
  | none => throw (.notARegistryUrl text)
  | some url => if url.kind = expected then return url else throw (.urlOfOtherKind expected url.kind)

namespace Entities

def resolve (t : Task) (request : Rdap.Request) : Resolution (List Item) := do
  let response ← askRegistry request
  let e ← objectOf "entity" (fun | .entity e => some e | _ => none) (.nothingFound "entity" request.query) response
  return [t.item "handle" e.attributes (e.edges t.scope)]

/-- By handle, on the server that the handle leads to. -/
def get (t : Task) : Plan (Except QueryError Item) :=
  t.cachedItem (.nothingFound "entity" t.text) (resolve t ⟨.entity, t.text, none⟩)

def list (_ : Task) : Plan Outcome := .done (.ok [])

/-- By URL, on the server of the URL. -/
def search (t : Task) : Plan Outcome :=
  t.cached do
    let url ← urlOf .entity t.text
    resolve t ⟨.entity, url.query, some url.root⟩

end Entities

namespace Nameservers

def resolve (t : Task) : Resolution (List Item) := do
  let url ← urlOf .nameserver t.text
  let response ← askRegistry ⟨.nameserver, url.query, some url.root⟩
  let n ← objectOf "nameserver" (fun | .nameserver n => some n | _ => none) (.nothingFound "nameserver" t.text)
    response
  return [t.item "ldhName" n.attributes n.edges]

def get (t : Task) : Plan (Except QueryError Item) := t.recalledItem (.cannotGet "Nameservers")

def list (t : Task) : Plan Outcome := t.fail (.cannotList "Nameservers" .search)

def search (t : Task) : Plan Outcome := t.cached (resolve t)

end Nameservers

namespace Autnums

def bareNumber (text : String) : String :=
  match Text.dropStart? "AS".toList text.toList with
  | some rest => String.ofList rest
  | none => text

def resolve (t : Task) : Resolution (List Item) := do
  let response ← askRegistry ⟨.autnum, bareNumber t.text, none⟩
  let a ← objectOf "autnum" (fun | .autnum a => some a | _ => none) (.nothingFound "ASN" t.text) response
  return [t.item "handle" a.attributes a.edges]

def get (t : Task) : Plan (Except QueryError Item) := t.cachedItem (.nothingFound "ASN" t.text) (resolve t)

def list (t : Task) : Plan Outcome := t.fail (.cannotList "ASNs" .get)

end Autnums
end AssetGraph.Resolve

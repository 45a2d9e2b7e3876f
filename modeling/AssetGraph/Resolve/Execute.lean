import AssetGraph.Config
import AssetGraph.Resolve.Hosts
import AssetGraph.Resolve.Registries

/-!
# Executing queries

`execute` gives a query to the source of its type. A scope that the source does not serve is refused before anything
else happens.
-/
namespace AssetGraph.Resolve

/-- How long outcomes of a type are kept, in milliseconds. -/
def lifetime (c : Config) : ItemType → Nat
  | .dns => Config.milliseconds c.dnsTtl
  | .http => Config.milliseconds c.httpTtl
  | .ip => 0
  | _ => Config.milliseconds c.rdapTtl

def get (t : Task) : Plan (Except QueryError Item) :=
  match t.type with
  | .dns => Names.get t
  | .http => Pages.get t
  | .ip => Addresses.get t
  | .asn => Autnums.get t
  | .domain => Domains.get t
  | .entity => Entities.get t
  | .ipNetwork => IpNetworks.get t
  | .nameserver => Nameservers.get t

def list (t : Task) : Plan Outcome :=
  match t.type with
  | .dns => Names.list t
  | .http => Pages.list t
  | .ip => Addresses.list t
  | .asn => Autnums.list t
  | .domain => Domains.list t
  | .entity => Entities.list t
  | .ipNetwork => IpNetworks.list t
  | .nameserver => Nameservers.list t

/-- Pages, addresses and autonomous systems cannot be searched for. -/
def search (c : Config) (t : Task) : Plan Outcome :=
  match t.type with
  | .dns => Names.search t c.reverseLookup
  | .domain => Domains.search t
  | .entity => Entities.search t
  | .ipNetwork => IpNetworks.search t
  | .nameserver => Nameservers.search t
  | .http => t.fail (.cannotSearch t.type t.text)
  | .ip => t.fail (.cannotSearch t.type t.text)
  | .asn => t.fail (.cannotSearch t.type t.text)

def perform (c : Config) (type : ItemType) (method : Method) (scope text : String) (ignoreCache : Bool) :
    Plan Outcome :=
  if type.scopes.contains scope then
    let t : Task := { type, method, scope, text, ignoreCache, ttl := lifetime c type }
    match method with
    | .get => (get t).bind fun item => .done (Outcome.ofItem item)
    | .list => list t
    | .search => search c t
  else .done (.error ((QueryError.unservedScope scope).inContext scope type.name type.source))

/-- Answers a query. -/
def execute (c : Config) (q : Query) (ignoreCache : Bool) : Plan Outcome :=
  match ItemType.ofName? q.type with
  | some type => perform c type q.method q.scope q.text ignoreCache
  | none =>
    .done (.error { (Cause.unknownType q.type).error with scope := some q.scope, itemType := some q.type })

end AssetGraph.Resolve

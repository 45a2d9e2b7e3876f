import AssetGraph.Edge
import AssetGraph.Rdap.Object
import AssetGraph.Rdap.Url
import AssetGraph.Text.Lowercase

/-!
# Edges of registry objects

What an object says about other objects becomes queries for them. Entities are only informative; a domain is affected
by its nameservers and its network; an entity affects its autonomous systems; a nameserver and its names and
addresses affect each other.
-/
namespace AssetGraph.Rdap

/-- Entities are searched by their self link; one without it cannot be found again. -/
def entityEdges (entities : List Entity) : List Edge :=
  (entities.filterMap fun e => e.selfLink?).map fun href =>
    .searching .entity href globalScope .inert

/-- Nameservers are searched on the server of the first fetched URL that is a registry URL. -/
def nameserverEdges (nameservers : List Nameserver) (fetched : List String) : List Edge :=
  match fetched.findSome? Url.parse? with
  | none => []
  | some origin =>
    (nameservers.filter fun n => n.ldhName ≠ "").map fun n =>
      .searching .nameserver (origin.join .nameserver n.ldhName) globalScope .inbound

def networkEdge : Option IpNetwork → List Edge
  | none => []
  | some n =>
    if n.startAddress = "" then []
    else [.searching .ipNetwork n.startAddress globalScope .inbound]

def autnumEdges (autnums : List Autnum) (scope : String) : List Edge :=
  (autnums.filterMap fun a => a.handle).map fun handle => .getting .asn handle scope .outbound

def dnsNameEdge (ldhName : String) : Edge :=
  .searching .dns (Text.lowercase ldhName) globalScope .both

def addressEdges : Option HostAddresses → List Edge
  | none => []
  | some hosts => hosts.all.map fun ip => .getting .ip ip globalScope .both

def IpNetwork.edges (n : IpNetwork) : List Edge := entityEdges n.entities

def Domain.edges (d : Domain) (fetched : List String) : List Edge :=
  nameserverEdges d.nameservers fetched ++ entityEdges d.entities ++ networkEdge d.network

def Entity.edges (e : Entity) (scope : String) : List Edge :=
  entityEdges e.entities ++ autnumEdges e.autnums scope

def Nameserver.edges (n : Nameserver) : List Edge :=
  entityEdges n.entities ++ [dnsNameEdge n.ldhName] ++ addressEdges n.addresses

def Autnum.edges (a : Autnum) : List Edge := entityEdges a.entities

/-- The edges of an object that was found in a scope by fetching some URLs. -/
def Object.edges (scope : String) (fetched : List String) : Object → List Edge
  | ipNetwork n => IpNetwork.edges n
  | domain d => d.edges fetched
  | entity e => e.edges scope
  | nameserver n => n.edges
  | autnum a => Autnum.edges a

end AssetGraph.Rdap

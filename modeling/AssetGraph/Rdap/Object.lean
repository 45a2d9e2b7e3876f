import AssetGraph.Rdap.Card

/-!
# Registry objects

The five classes of object that a registry answers with. Registries leave fields out freely, so lists default to
empty and texts to none. `Record` holds what every class has.
-/
namespace AssetGraph.Rdap

structure Link where
  value : Option String := none
  rel : Option String := none
  href : String := ""
  hreflang : List String := []
  title : Option String := none
  media : Option String := none
  type : Option String := none
  deriving DecidableEq, Repr

structure Event where
  action : String := ""
  actor : Option String := none
  date : String := ""
  links : List Link := []
  deriving DecidableEq, Repr

structure Remark where
  title : Option String := none
  type : Option String := none
  description : List String := []
  links : List Link := []
  deriving DecidableEq, Repr

structure PublicId where
  type : String := ""
  identifier : String := ""
  deriving DecidableEq, Repr

structure HostAddresses where
  v4 : List String := []
  v6 : List String := []
  deriving DecidableEq, Repr

namespace HostAddresses

def all (hs : HostAddresses) : List String := hs.v4 ++ hs.v6

def isEmpty (hs : HostAddresses) : Bool := hs.v4.isEmpty && hs.v6.isEmpty

end HostAddresses

structure Record where
  objectClassName : String := ""
  conformance : List String := []
  notices : List Remark := []
  handle : Option String := none
  status : List String := []
  remarks : List Remark := []
  links : List Link := []
  port43 : Option String := none
  events : List Event := []
  deriving DecidableEq, Repr

/-- The address of the record's own entry, unless that is empty. -/
def Record.selfLink? (r : Record) : Option String :=
  ((r.links.find? fun l => l.rel = some "self").map Link.href).filter (· ≠ "")

/-- An allocated block of addresses, with related entities of type `E`. -/
structure IpNetworkOf (E : Type) extends Record where
  startAddress : String := ""
  endAddress : String := ""
  ipVersion : Option String := none
  name : Option String := none
  type : Option String := none
  country : Option String := none
  parentHandle : Option String := none
  entities : List E := []

/-- An allocated block of autonomous system numbers, with related entities of type `E`. -/
structure AutnumOf (E : Type) extends Record where
  startAutnum : Option Nat := none
  endAutnum : Option Nat := none
  ipVersion : Option String := none
  name : Option String := none
  type : Option String := none
  country : Option String := none
  entities : List E := []

structure Entity extends Record where
  card : Option Card := none
  roles : List String := []
  publicIds : List PublicId := []
  asEventActor : List Event := []
  entities : List Entity := []
  networks : List (IpNetworkOf Entity) := []
  autnums : List (AutnumOf Entity) := []

abbrev IpNetwork := IpNetworkOf Entity

abbrev Autnum := AutnumOf Entity

structure Nameserver extends Record where
  ldhName : String := ""
  unicodeName : Option String := none
  addresses : Option HostAddresses := none
  entities : List Entity := []

structure Domain extends Record where
  ldhName : Option String := none
  unicodeName : Option String := none
  variants : List Json := []
  nameservers : List Nameserver := []
  secureDns : Option Json := none
  entities : List Entity := []
  publicIds : List PublicId := []
  network : Option IpNetwork := none

inductive Object where
  | ipNetwork (n : IpNetwork)
  | domain (d : Domain)
  | entity (e : Entity)
  | nameserver (n : Nameserver)
  | autnum (a : Autnum)

def Object.className : Object → String
  | ipNetwork _ => "ip network"
  | domain _ => "domain"
  | entity _ => "entity"
  | nameserver _ => "nameserver"
  | autnum _ => "autnum"

end AssetGraph.Rdap

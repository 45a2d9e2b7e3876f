import AssetGraph.Item
import AssetGraph.Rdap.Object

/-!
# Attributes of registry objects

The attribute table of each class. Missing values, empty texts and empty lists are left out; a link is shown as its
address and a card as its filled-in fields.
-/
namespace AssetGraph.Rdap

open Json

def ofOption {α : Type} (toJson : α → Json) : Option α → Json
  | some v => toJson v
  | none => null

def ofText? : Option String → Json := ofOption string

def Link.toJson (l : Link) : Json := string l.href

def linksJson (links : List Link) : Json := array (links.map Link.toJson)

def optionalMember (name : String) (value : Option String) : List (String × Json) :=
  (value.map fun v => (name, string v)).toList

/-- The member that a list of links gives unless it is empty. -/
def linksMember (links : List Link) : List (String × Json) :=
  if links.isEmpty then [] else [("links", linksJson links)]

def Event.toJson (e : Event) : Json :=
  object ([("eventAction", string e.action)] ++ optionalMember "eventActor" e.actor ++
    [("eventDate", string e.date)] ++ linksMember e.links)

def Remark.toJson (r : Remark) : Json :=
  object ([("description", ofStrings r.description)] ++ linksMember r.links ++ optionalMember "title" r.title ++
    optionalMember "type" r.type)

def PublicId.toJson (p : PublicId) : Json :=
  object [("identifier", string p.identifier), ("type", string p.type)]

def HostAddresses.toJson (h : HostAddresses) : Json :=
  object [("v4", ofStrings h.v4), ("v6", ofStrings h.v6)]

/-- The filled-in fields of a card under their display names. -/
def Card.toJson (c : Card) : Json :=
  object (Keyed.ofList (c.details.map fun (name, value) => (name, string value))).entries

def present (fields : List (String × Json)) : Attributes :=
  Attributes.ofFields (fields.filter fun field => !field.2.isHollow)

def Record.fields (r : Record) : List (String × Json) :=
  [("conformance", ofStrings r.conformance),
    ("events", array (r.events.map Event.toJson)),
    ("handle", ofText? r.handle),
    ("links", linksJson r.links),
    ("notices", array (r.notices.map Remark.toJson)),
    ("objectClassName", string r.objectClassName),
    ("port43", ofText? r.port43),
    ("remarks", array (r.remarks.map Remark.toJson)),
    ("status", ofStrings r.status)]

def IpNetwork.attributes (n : IpNetwork) : Attributes :=
  present (n.toRecord.fields ++ [
    ("country", ofText? n.country),
    ("endAddress", string n.endAddress),
    ("ipVersion", ofText? n.ipVersion),
    ("name", ofText? n.name),
    ("parentHandle", ofText? n.parentHandle),
    ("startAddress", string n.startAddress),
    ("type", ofText? n.type)])

def Domain.attributes (d : Domain) : Attributes :=
  present (d.toRecord.fields ++ [
    ("ldhName", ofText? d.ldhName),
    ("publicIDs", array (d.publicIds.map PublicId.toJson)),
    ("secureDNS", ofOption id d.secureDns),
    ("unicodeName", ofText? d.unicodeName),
    ("variants", array d.variants)])

def Entity.attributes (e : Entity) : Attributes :=
  present (e.toRecord.fields ++ [
    ("asEventActor", array (e.asEventActor.map Event.toJson)),
    ("publicIDs", array (e.publicIds.map PublicId.toJson)),
    ("roles", ofStrings e.roles),
    ("vCard", ofOption Card.toJson e.card)])

def Nameserver.attributes (n : Nameserver) : Attributes :=
  present (n.toRecord.fields ++ [
    ("ipAddresses", ofOption HostAddresses.toJson n.addresses),
    ("ldhName", string n.ldhName),
    ("unicodeName", ofText? n.unicodeName)])

def Autnum.attributes (a : Autnum) : Attributes :=
  present (a.toRecord.fields ++ [
    ("country", ofText? a.country),
    ("endAutnum", ofOption Json.ofNat a.endAutnum),
    ("ipVersion", ofText? a.ipVersion),
    ("name", ofText? a.name),
    ("startAutnum", ofOption Json.ofNat a.startAutnum),
    ("type", ofText? a.type)])

def Object.attributes : Object → Attributes
  | ipNetwork n => IpNetwork.attributes n
  | domain d => d.attributes
  | entity e => e.attributes
  | nameserver n => n.attributes
  | autnum a => Autnum.attributes a

end AssetGraph.Rdap

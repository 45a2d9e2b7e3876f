import AssetGraph.Dns.Name
import AssetGraph.Dns.Record
import AssetGraph.Item

/-!
# Items of DNS answers

The answers for a name become one item per owner of an alias, then one item per owner of addresses, each in the order
of the owners. Of several aliases of one owner the last counts; pointer records give no item.
-/
namespace AssetGraph.Dns

open Json

/-- Answers under their owners, whose names have lost one final point. -/
structure Answers where
  aliases : Keyed Record
  addresses : Keyed (List Record)

namespace Answers

def empty : Answers := ⟨.empty, .empty⟩

def add (as : Answers) (r : Record) : Answers :=
  let owner := trimName r.name
  match r.data with
  | .cname _ => { as with aliases := as.aliases.insert owner r }
  | .a _ => { as with addresses := as.addresses.alter owner fun rs => rs.getD [] ++ [r] }
  | .aaaa _ => { as with addresses := as.addresses.alter owner fun rs => rs.getD [] ++ [r] }
  | .ptr _ => as

def ofList (rs : List Record) : Answers := rs.foldl add empty

def isEmpty (as : Answers) : Bool := as.aliases.entries.isEmpty && as.addresses.entries.isEmpty

end Answers

def domainEdge (name : String) : Edge := .searching .domain name globalScope .inbound

/-- The item of an alias record; any other record has none. -/
def aliasItem? (name : String) (r : Record) : Option Item :=
  match r.data with
  | .cname target =>
    let target := trimName target
    some
      { type := ItemType.dns.name
        scope := globalScope
        uniqueAttribute := "name"
        attributes := Attributes.ofFields
          [("name", string name), ("type", string "CNAME"), ("ttl", Json.ofNat r.ttl), ("target", string target)]
        edges := [domainEdge name, .searching .dns target globalScope .inbound] }
  | _ => none

structure AddressEntry where
  type : String
  ip : String
  ttl : Nat
  deriving DecidableEq, Repr

namespace AddressEntry

/-- By type, then by the text of the address, then by lifetime. -/
def le (x y : AddressEntry) : Bool :=
  decide (x.type < y.type) ||
    (x.type == y.type && (decide (x.ip < y.ip) || (x.ip == y.ip && decide (x.ttl ≤ y.ttl))))

def ofRecord? (r : Record) : Option AddressEntry :=
  r.address?.map fun address => ⟨r.type.word, address.render, r.ttl⟩

def toJson (e : AddressEntry) : Json :=
  object [("ip", string e.ip), ("ttl", Json.ofNat e.ttl), ("type", string e.type)]

end AddressEntry

def addressEntries (rs : List Record) : List AddressEntry :=
  (rs.filterMap AddressEntry.ofRecord?).mergeSort AddressEntry.le

def addressItem (name : String) (rs : List Record) : Item :=
  let entries := addressEntries rs
  { type := ItemType.dns.name
    scope := globalScope
    uniqueAttribute := "name"
    attributes := Attributes.ofFields
      [("name", string name), ("type", string "address"), ("records", array (entries.map AddressEntry.toJson))]
    edges := (entries.map fun e => .getting .ip e.ip globalScope .both) ++ [domainEdge name] }

/-- The items of all answers, aliases first. -/
def Answers.items (as : Answers) : List Item :=
  (as.aliases.entries.filterMap fun (name, r) => aliasItem? name r) ++
    as.addresses.entries.map fun (name, rs) => addressItem name rs

end AssetGraph.Dns

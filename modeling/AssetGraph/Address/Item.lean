import AssetGraph.Address.Properties
import AssetGraph.Item

/-!
# Items of addresses

The node of a single address, with what the address tells about itself and without edges.
-/
namespace AssetGraph.Address

open Json

def Properties.fields (p : Properties) : List (String × Json) := [
  ("interfaceLocalMulticast", .bool p.interfaceLocalMulticast),
  ("ip", string p.ip),
  ("linkLocalMulticast", .bool p.linkLocalMulticast),
  ("linkLocalUnicast", .bool p.linkLocalUnicast),
  ("loopback", .bool p.loopback),
  ("multicast", .bool p.multicast),
  ("private", .bool p.isPrivate),
  ("unspecified", .bool p.unspecified)]

def item (a : Address) (scope : String) : Item :=
  { type := ItemType.ip.name
    scope := scope
    uniqueAttribute := "ip"
    attributes := Attributes.ofFields a.properties.fields
    edges := [] }

end AssetGraph.Address

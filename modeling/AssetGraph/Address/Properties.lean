import AssetGraph.Address.Notation

/-!
# Properties of an address

What an address tells about itself. An IPv4-mapped address is described as the IPv4 address that it carries.
-/
namespace AssetGraph.Address

structure Properties where
  ip : String
  unspecified : Bool
  loopback : Bool
  isPrivate : Bool
  multicast : Bool
  interfaceLocalMulticast : Bool
  linkLocalMulticast : Bool
  linkLocalUnicast : Bool
  deriving DecidableEq, Repr

def octet (a : Address) (i : Nat) : Nat := a.octets.getD i 0

def propertiesV4 (word : BitVec 32) : Properties :=
  let a := (v4 word).octet 0
  let b := (v4 word).octet 1
  let c := (v4 word).octet 2
  { ip := renderV4 word
    unspecified := word == 0
    loopback := a == 127
    isPrivate := a == 10 || (a == 172 && b / 16 == 1) || (a == 192 && b == 168)
    multicast := a / 16 == 14
    interfaceLocalMulticast := false
    linkLocalMulticast := a == 224 && b == 0 && c == 0
    linkLocalUnicast := a == 169 && b == 254 }

def propertiesV6 (word : BitVec 128) : Properties :=
  let a := (v6 word).octet 0
  let b := (v6 word).octet 1
  { ip := renderV6 word
    unspecified := word == 0
    loopback := word == 1
    isPrivate := a / 2 == 126
    multicast := a == 255
    interfaceLocalMulticast := a == 255 && b % 16 == 1
    linkLocalMulticast := a == 255 && b % 16 == 2
    linkLocalUnicast := a == 254 && b / 64 == 2 }

def properties (a : Address) : Properties :=
  match a.unmap with
  | v4 word => propertiesV4 word
  | v6 word => propertiesV6 word

end AssetGraph.Address

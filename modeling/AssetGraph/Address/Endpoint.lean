import AssetGraph.Address.Notation

/-!
# Addresses with a port

A server is written `ipv4:port` or `[ipv6]:port`; a decimal zone number may follow the IPv6 address after `%`.
-/
namespace AssetGraph.Address

/-- Decimal digits, without a sign, for a number below `bound`. -/
def readBelow? (bound : Nat) (cs : List Char) : Option Nat :=
  (Numeral.read? 10 cs).filter (· < bound)

/-- The text between the brackets of an IPv6 endpoint. -/
def isBracketed (cs : List Char) : Bool :=
  match Text.splitFirst? '%' cs with
  | some (address, zone) => (parseV6? address).isSome && (readBelow? (Numeral.limit 32) zone).isSome
  | none => (parseV6? cs).isSome

def isEndpoint (s : String) : Bool :=
  match s.toList with
  | '[' :: cs =>
    match Text.splitFirst? ']' cs with
    | some (inside, ':' :: port) => isBracketed inside && (readBelow? 65536 port).isSome
    | _ => false
  | cs =>
    match Text.splitFirst? ':' cs with
    | some (address, port) => (parseV4? address).isSome && (readBelow? 65536 port).isSome
    | none => false

end AssetGraph.Address

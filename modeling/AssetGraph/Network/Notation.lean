import AssetGraph.Network
import AssetGraph.Address.Notation
import AssetGraph.Text.Blank

/-!
# Network notation

A network is written as an address, a slash and the number of leading bits. Reading allows blanks around the text,
a plus sign before the number and any bits after the leading ones.
-/
namespace AssetGraph.Network

inductive Error where
  | invalidAddress (text : String)
  | invalidCidr (text : String)
  | lengthTooLong (address : Address) (length : Nat)
  | familyMismatch (first last : Address)
  deriving DecidableEq, Repr

def Error.message : Error → String
  | invalidAddress text => "Invalid IP address: " ++ text
  | invalidCidr text => "Invalid CIDR: " ++ text
  | lengthTooLong address length =>
    "Prefix length " ++ Numeral.text length ++ " exceeds " ++ Numeral.text address.width ++ " for " ++
      address.render
  | familyMismatch first last => "Address family mismatch: " ++ first.render ++ " and " ++ last.render

/-- The network of the first `length` bits of `address`. -/
def make (address : Address) (length : Nat) : Except Error Network :=
  match of? address length with
  | some n => .ok n
  | none => .error (.lengthTooLong address length)

def parse (s : String) : Except Error Network :=
  match Text.splitFirst? '/' (Text.trim s.toList) with
  | none => .error (.invalidCidr s)
  | some (address, length) =>
    match Address.parse? (String.ofList address), Numeral.readUnsigned? 256 length with
    | some address, some length => make address length
    | _, _ => .error (.invalidCidr s)

def render (n : Network) : String :=
  n.base.render ++ "/" ++ Numeral.text n.length

end AssetGraph.Network

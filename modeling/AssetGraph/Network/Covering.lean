import AssetGraph.Network.Notation

/-!
# The network that covers a range

A registry reports an allocation by its first and last address. The network of the bits that both ends share
covers every address between them, whether or not the range is aligned.
-/
namespace AssetGraph

/-- The number of leading bits, out of `width`, that two words share. -/
def commonBits (width : Nat) (x y : BitVec 128) : Nat :=
  let difference := (x ^^^ y).toNat
  if difference = 0 then width else width - (difference.log2 + 1)

/-- The number of leading bits that two addresses of one family share. -/
def Address.commonLength? : Address → Address → Option Nat
  | .v4 x, .v4 y => some (commonBits 32 (x.setWidth 128) (y.setWidth 128))
  | .v6 x, .v6 y => some (commonBits 128 x y)
  | _, _ => none

namespace Network

/-- Reads one end of a range, with blanks around it allowed. -/
def readEnd (s : String) : Except Error Address :=
  match Address.parse? (String.ofList (Text.trim s.toList)) with
  | some address => .ok address
  | none => .error (.invalidAddress s)

/-- The smallest network that holds both ends of a reported range. -/
def covering (first last : String) : Except Error Network := do
  let first ← readEnd first
  let last ← readEnd last
  match first.commonLength? last with
  | some length => make first length
  | none => .error (.familyMismatch first last)

end Network
end AssetGraph

import AssetGraph.Address

/-!
# Networks

A network is an address together with the number of leading bits that matter; the other bits of the address are
clear, so that two spellings of one network are equal. `contains` compares the leading bits of an address, after
reading an IPv4-mapped one as IPv4.
-/
namespace AssetGraph

/-- The addresses that share the first `length` bits of `base`. -/
structure Network where
  base : Address
  length : Nat
  length_le : length ≤ base.width
  masked : base.mask length = base
  deriving DecidableEq

namespace Network

/-- The network of the first `length` bits of `address`; none when it has fewer bits. -/
def of? (address : Address) (length : Nat) : Option Network :=
  if h : length ≤ address.width then
    some ⟨address.mask length, length, by simpa using h, Address.mask_mask address length⟩
  else none

def host (address : Address) : Network :=
  ⟨address, address.width, Nat.le_refl _, Address.mask_width address⟩

def isV4 (n : Network) : Bool := n.base.isV4

def last (n : Network) : Address :=
  let width := n.base.width
  let hostBits := ~~~Address.prefixMask width n.length &&& Address.fullMask width
  Address.ofWord n.base (n.base.toWord ||| hostBits)

/-- Whether the address lies in the network; an IPv4-mapped one counts as IPv4. -/
def contains (n : Network) (address : Address) : Bool :=
  let address := address.unmap
  n.base.isV4 == address.isV4 && address.mask n.length == n.base

@[simp] theorem contains_unmap (n : Network) (a : Address) : n.contains a.unmap = n.contains a := by
  simp [contains]

/-- Whether every address of `other` lies in the network. -/
def containsNetwork (n other : Network) : Bool :=
  n.length ≤ other.length && n.contains other.base

end Network
end AssetGraph

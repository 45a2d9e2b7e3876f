/-!
# IP addresses

An address is a word of 32 or 128 bits. Mask arithmetic is done for both families on 128-bit words: `toWord`
widens, `ofWord` cuts back to the family of an address, and `prefixMask width length` has exactly the first
`length` of the low `width` bits set. `unmap` reads `::ffff:a.b.c.d` as `a.b.c.d`.
-/
namespace AssetGraph

/-- An address of either family. -/
inductive Address where
  | v4 (word : BitVec 32)
  | v6 (word : BitVec 128)
  deriving DecidableEq, Repr

namespace Address

def isV4 : Address → Bool
  | v4 _ => true
  | v6 _ => false

def width : Address → Nat
  | v4 _ => 32
  | v6 _ => 128

def toWord : Address → BitVec 128
  | v4 word => word.setWidth 128
  | v6 word => word

/-- The address with the bits of `word`, in the family of the first argument. -/
def ofWord : Address → BitVec 128 → Address
  | v4 _, word => v4 (word.setWidth 32)
  | v6 _, word => v6 word

def fullMask (width : Nat) : BitVec 128 :=
  if width = 128 then BitVec.allOnes 128 else (1 <<< width) - 1

/-- The word with the first `length` of the low `width` bits set. -/
def prefixMask (width length : Nat) : BitVec 128 :=
  if length = 0 then 0 else (BitVec.allOnes 128 <<< (width - length)) &&& fullMask width

/-- The address with every bit after the first `length` cleared. -/
def mask (a : Address) (length : Nat) : Address :=
  ofWord a (a.toWord &&& prefixMask a.width length)

/-- `::ffff:a.b.c.d` as `a.b.c.d`; every other address unchanged. -/
def unmap : Address → Address
  | v4 word => v4 word
  | v6 word => if word.extractLsb' 32 96 = 0xFFFF#96 then v4 (word.setWidth 32) else v6 word

/-- The bytes from the highest. -/
def octets : Address → List Nat
  | v4 word => (List.range 4).map fun i => (word >>> (24 - 8 * i)).toNat % 256
  | v6 word => (List.range 16).map fun i => (word >>> (120 - 8 * i)).toNat % 256

/-- The 16-bit groups of a 128-bit word from the highest. -/
def groups (word : BitVec 128) : List Nat :=
  (List.range 8).map fun i => (word >>> (112 - 16 * i)).toNat % 65536

def ofOctets (a b c d : Nat) : BitVec 32 :=
  BitVec.ofNat 32 (((a * 256 + b) * 256 + c) * 256 + d)

def ofGroups (gs : List Nat) : BitVec 128 :=
  BitVec.ofNat 128 (gs.foldl (fun acc g => acc * 65536 + g) 0)

@[simp] theorem width_ofWord (a : Address) (word : BitVec 128) : (ofWord a word).width = a.width := by
  cases a <;> rfl

@[simp] theorem isV4_ofWord (a : Address) (word : BitVec 128) : (ofWord a word).isV4 = a.isV4 := by
  cases a <;> rfl

@[simp] theorem width_mask (a : Address) (length : Nat) : (a.mask length).width = a.width :=
  width_ofWord a _

@[simp] theorem isV4_mask (a : Address) (length : Nat) : (a.mask length).isV4 = a.isV4 :=
  isV4_ofWord a _

/-- Masking twice with one length changes nothing more. -/
@[simp] theorem mask_mask (a : Address) (length : Nat) : (a.mask length).mask length = a.mask length := by
  cases a <;>
    simp only [mask, ofWord, toWord, width, v4.injEq, v6.injEq] <;>
    ext i hi <;> simp +contextual [show i < 128 by omega]

@[simp] theorem mask_width (a : Address) : a.mask a.width = a := by
  cases a with
  | v4 word =>
    have h : prefixMask 32 32 = (BitVec.allOnes 32).setWidth 128 := by decide
    simp only [mask, ofWord, toWord, width, h, v4.injEq]
    rw [BitVec.setWidth_and, BitVec.setWidth_setWidth_of_le _ (by omega),
      BitVec.setWidth_setWidth_of_le _ (by omega), BitVec.setWidth_eq, BitVec.setWidth_eq, BitVec.and_allOnes]
  | v6 word =>
    have h : prefixMask 128 128 = BitVec.allOnes 128 := by decide
    simp only [mask, ofWord, toWord, width, h, BitVec.and_allOnes]

@[simp] theorem unmap_unmap (a : Address) : a.unmap.unmap = a.unmap := by
  cases a with
  | v4 word => rfl
  | v6 word =>
    by_cases h : word.extractLsb' 32 96 = 0xFFFF#96 <;> simp [unmap, h]

end Address
end AssetGraph

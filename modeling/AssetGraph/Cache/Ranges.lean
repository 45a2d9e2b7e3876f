import AssetGraph.Cache.Rate
import AssetGraph.Network

/-!
# The range cache

Values for networks, found by any address or network inside. Of several networks that hold the target the longest
counts, and of equally long ones the one stored last. Each address family has its own ranges; those found expired
during a search are dropped.
-/
namespace AssetGraph.Cache

/-- What happened to searches and ranges. `entries` is the number of ranges at the last change. -/
structure RangeCounters where
  hits : Nat := 0
  misses : Nat := 0
  expired : Nat := 0
  entries : Nat := 0
  deriving DecidableEq, Repr

def RangeCounters.rate (c : RangeCounters) : String := rateText c.hits c.misses

/-- A value for a network; `sequence` tells the order of storing. -/
structure Range (V : Type) where
  network : Network
  value : V
  expiresAt : Nat
  sequence : Nat

namespace Range

variable {V : Type}

def isExpired (r : Range V) (now : Nat) : Bool := r.expiresAt ≤ now

/-- Whether `r` wins over `s` when both hold the target. -/
def beats (r s : Range V) : Bool :=
  s.network.length < r.network.length || (s.network.length == r.network.length && s.sequence ≤ r.sequence)

def best? : List (Range V) → Option (Range V)
  | [] => none
  | r :: rs =>
    match best? rs with
    | none => some r
    | some s => if s.beats r then some s else some r

end Range

structure Ranges (V : Type) where
  v4 : List (Range V) := []
  v6 : List (Range V) := []
  nextSequence : Nat := 0
  counters : RangeCounters := {}

namespace Ranges

variable {V : Type}

def size (c : Ranges V) : Nat := c.v4.length + c.v6.length

def family (c : Ranges V) (isV4 : Bool) : List (Range V) := if isV4 then c.v4 else c.v6

/-- Replaces the ranges of a family and notes how many there are in all. -/
def withFamily (c : Ranges V) (isV4 : Bool) (rs : List (Range V)) : Ranges V :=
  let c := if isV4 then { c with v4 := rs } else { c with v6 := rs }
  { c with counters := { c.counters with entries := c.size } }

/-- Keeps a value for a network during `ttl` milliseconds, in place of an earlier one for the same network. -/
def store (c : Ranges V) (now : Nat) (network : Network) (value : V) (ttl : Nat) : Ranges V :=
  let others := (c.family network.isV4).filter fun r => r.network ≠ network
  let c := { c with nextSequence := c.nextSequence + 1 }
  c.withFamily network.isV4 (others ++ [⟨network, value, now + ttl, c.nextSequence - 1⟩])

def dropExpired (c : Ranges V) (now : Nat) (isV4 : Bool) : Ranges V :=
  let old := (c.family isV4).countP fun r => r.isExpired now
  if old = 0 then c
  else
    let c := c.withFamily isV4 ((c.family isV4).filter fun r => !r.isExpired now)
    { c with counters := { c.counters with expired := c.counters.expired + old } }

def countSearch (c : Ranges V) (found : Bool) : Ranges V :=
  if found then { c with counters := { c.counters with hits := c.counters.hits + 1 } }
  else { c with counters := { c.counters with misses := c.counters.misses + 1 } }

/-- The value of the best unexpired range of a family among those that `holds` the target. -/
def search (c : Ranges V) (now : Nat) (isV4 : Bool) (holds : Network → Bool) : Option V × Ranges V :=
  let live := (c.family isV4).filter fun r => !r.isExpired now && holds r.network
  let found := (Range.best? live).map Range.value
  (found, (c.dropExpired now isV4).countSearch found.isSome)

/-- Searches by an address; an IPv4-mapped one counts as IPv4. -/
def searchAddress (c : Ranges V) (now : Nat) (a : Address) : Option V × Ranges V :=
  let a := a.unmap
  c.search now a.isV4 fun n => n.contains a

/-- Searches by a network that must lie inside. -/
def searchNetwork (c : Ranges V) (now : Nat) (n : Network) : Option V × Ranges V :=
  c.search now n.isV4 fun m => m.containsNetwork n

def clear (c : Ranges V) : Ranges V :=
  { c with v4 := [], v6 := [], counters := { c.counters with entries := 0 } }

end Ranges
end AssetGraph.Cache

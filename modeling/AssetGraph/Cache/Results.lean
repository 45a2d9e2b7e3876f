import AssetGraph.Cache.Rate
import AssetGraph.Outcome

/-!
# The result cache

Outcomes of queries under the identities of the queries, each until its time is up. An entry is looked at for its age
only when it is looked up, or when the cache is purged. Every lookup is counted.
-/
namespace AssetGraph.Cache

/-- What happened to lookups and entries. `entries` is the number of entries at the last change. -/
structure ResultCounters where
  hits : Nat := 0
  negativeHits : Nat := 0
  misses : Nat := 0
  bypassed : Nat := 0
  expired : Nat := 0
  entries : Nat := 0
  deriving DecidableEq, Repr

/-- The share of lookups that an entry answered, among those that did not bypass the cache. Hits of both kinds are added
as words of 64 bits. -/
def ResultCounters.rate (c : ResultCounters) : String :=
  rateText ((c.hits + c.negativeHits) % Numeral.limit 64) c.misses

/-- An outcome and the first moment at which it no longer counts. -/
structure Entry where
  outcome : Outcome
  expiresAt : Nat

def Entry.isExpired (e : Entry) (now : Nat) : Bool := e.expiresAt ≤ now

structure Results where
  entries : List (Identity × Entry) := []
  counters : ResultCounters := {}

namespace Results

def size (c : Results) : Nat := c.entries.length

def find? (c : Results) (key : Identity) : Option Entry :=
  (c.entries.find? fun e => e.1 = key).map Prod.snd

def without (c : Results) (key : Identity) : List (Identity × Entry) :=
  c.entries.filter fun e => e.1 ≠ key

def withEntries (c : Results) (entries : List (Identity × Entry)) : Results :=
  { entries, counters := { c.counters with entries := entries.length } }

def countHit (c : Results) : Outcome → Results
  | .ok _ => { c with counters := { c.counters with hits := c.counters.hits + 1 } }
  | .error _ => { c with counters := { c.counters with negativeHits := c.counters.negativeHits + 1 } }

def countMiss (c : Results) : Results :=
  { c with counters := { c.counters with misses := c.counters.misses + 1 } }

def countBypass (c : Results) : Results :=
  { c with counters := { c.counters with bypassed := c.counters.bypassed + 1 } }

def countExpired (c : Results) (n : Nat) : Results :=
  { c with counters := { c.counters with expired := c.counters.expired + n } }

/-- The unexpired outcome of a key. A bypassing lookup finds nothing and leaves the entries alone; an expired entry
that is looked up is dropped. -/
def lookup (c : Results) (now : Nat) (key : Identity) (bypass : Bool) : Option Outcome × Results :=
  if bypass then (none, c.countBypass)
  else
    match c.find? key with
    | none => (none, c.countMiss)
    | some e =>
      if e.isExpired now then (none, ((c.withEntries (c.without key)).countExpired 1).countMiss)
      else (some e.outcome, c.countHit e.outcome)

def store (c : Results) (now : Nat) (key : Identity) (outcome : Outcome) (ttl : Nat) : Results :=
  c.withEntries ((key, ⟨outcome, now + ttl⟩) :: c.without key)

def settle (c : Results) (now : Nat) (key : Identity) (outcome : Outcome) (ttl : Nat) : Results :=
  if outcome.isCacheable then c.store now key outcome ttl else c

def invalidate (c : Results) (key : Identity) : Results := c.withEntries (c.without key)

/-- The number of expired entries, and the cache without them. -/
def purge (c : Results) (now : Nat) : Nat × Results :=
  let purged := c.entries.countP fun e => e.2.isExpired now
  (purged,
    if purged = 0 then c
    else (c.withEntries (c.entries.filter fun e => !e.2.isExpired now)).countExpired purged)

def clear (c : Results) : Results := c.withEntries []

end Results
end AssetGraph.Cache

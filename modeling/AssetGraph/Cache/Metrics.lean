import AssetGraph.Cache.Ranges
import AssetGraph.Cache.Results

/-!
# Metrics

The counters of the caches as samples under a namespace. A set of metrics refuses a name that it already has.
-/
namespace AssetGraph.Cache

/-- A counter only grows; a gauge shows a current number. -/
inductive MetricKind where
  | counter
  | gauge
  deriving DecidableEq, Repr

def MetricKind.word : MetricKind → String
  | counter => "counter"
  | gauge => "gauge"

structure Sample where
  name : String
  kind : MetricKind
  value : Nat
  help : String
  deriving DecidableEq, Repr

def ResultCounters.samples (c : ResultCounters) : List Sample := [
  ⟨"result_cache_hits_total", .counter, c.hits, "Result cache hits (items)"⟩,
  ⟨"result_cache_negative_hits_total", .counter, c.negativeHits, "Result cache hits replaying a cached error"⟩,
  ⟨"result_cache_misses_total", .counter, c.misses, "Result cache misses"⟩,
  ⟨"result_cache_bypassed_total", .counter, c.bypassed, "Lookups that ignored the cache on request"⟩,
  ⟨"result_cache_expired_total", .counter, c.expired, "Entries discarded after their TTL elapsed"⟩,
  ⟨"result_cache_entries", .gauge, c.entries, "Result cache entry count"⟩]

def RangeCounters.samples (c : RangeCounters) : List Sample := [
  ⟨"range_cache_hits_total", .counter, c.hits, "Range cache hits"⟩,
  ⟨"range_cache_misses_total", .counter, c.misses, "Range cache misses"⟩,
  ⟨"range_cache_expired_total", .counter, c.expired, "Network ranges discarded after their TTL elapsed"⟩,
  ⟨"range_cache_entries", .gauge, c.entries, "Range cache entry count"⟩]

/-- The samples with their full names; an empty namespace adds nothing. -/
def qualify (space : String) (samples : List Sample) : List Sample :=
  if space = "" then samples else samples.map fun s => { s with name := space ++ "_" ++ s.name }

def isNameStart (c : Char) : Bool := c.isAlpha || c == '_' || c == ':'

def isMetricName (s : String) : Bool :=
  match s.toList with
  | [] => false
  | c :: rest => isNameStart c && rest.all fun d => isNameStart d || d.isDigit

inductive RegistrationError where
  | invalidName
  | alreadyRegistered
  deriving DecidableEq, Repr

def RegistrationError.message : RegistrationError → String
  | invalidName => "Invalid metric name"
  | alreadyRegistered => "Metrics registration failed: Duplicate metrics collector registration attempted"

/-- Adds samples to a set of metrics that has none of their names. -/
def register (known samples : List Sample) : Except RegistrationError (List Sample) :=
  if !samples.all fun s => isMetricName s.name then .error .invalidName
  else if samples.any fun s => known.any fun k => k.name = s.name then .error .alreadyRegistered
  else .ok (known ++ samples)

/-- The double nearest to a count, which is a natural number too. -/
def asDouble (count : Nat) : Nat :=
  match Binary64.ofNat? count with
  | some x => x.magnitude.1 / x.magnitude.2
  | none => count

/-- The samples in the order of their names. Values are shown as doubles, so large ones are rounded. -/
def gather (samples : List Sample) : List Sample :=
  (samples.map fun s => { s with value := asDouble s.value }).mergeSort fun s t => decide (s.name ≤ t.name)

example : asDouble 300 = 300 ∧ asDouble 9007199254740993 = 9007199254740992 := by decide +kernel

end AssetGraph.Cache

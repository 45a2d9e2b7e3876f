import AssetGraph.Proofs.Cache.Counters
import AssetGraph.Proofs.Cache.RangeHistory
import AssetGraph.Proofs.Cache.ResultHistory

/-!
# The accounts of the caches

In every history each lookup and each search was counted once, the gauges show how much is there, and what came in is
there still, or it was replaced, has expired or was taken away.
-/
namespace AssetGraph.Cache

namespace ResultCounters

def lookups (c : ResultCounters) : Nat := c.hits + c.negativeHits + c.misses + c.bypassed

theorem lookups_add (c d : ResultCounters) : (c + d).lookups = c.lookups + d.lookups := by
  change (c.hits + d.hits) + (c.negativeHits + d.negativeHits) + (c.misses + d.misses) + (c.bypassed + d.bypassed) = _
  unfold lookups
  omega

theorem lookups_eq_of_totals_eq {c d : ResultCounters} (h : c.totals = d.totals) : c.lookups = d.lookups := by
  change c.totals.lookups = d.totals.lookups
  rw [h]

end ResultCounters

def RangeCounters.searches (c : RangeCounters) : Nat := c.hits + c.misses

namespace Results

variable {c : Results} {s : Timed} {key : Identity}

namespace Use

def isLookup : Use → Bool
  | lookup _ _ => true
  | _ => false

/-- The writes, none or one, under a key that holds nothing. -/
def creations (use : Use) (s : Timed) : Nat :=
  match use.write? with
  | some (key, _, _) => if (s.results.find? key).isNone then 1 else 0
  | none => 0

def removals : Use → Timed → Nat
  | invalidate key, s => if (s.results.find? key).isSome then 1 else 0
  | clear, s => s.results.size
  | _, _ => 0

theorem removals_of_write? {use : Use} {write : Identity × Outcome × Nat} (h : use.write? = some write) (s : Timed) :
    use.removals s = 0 := by
  cases use with
  | invalidate => cases h
  | clear => cases h
  | _ => rfl

end Use

theorem lookups_lookup (c : Results) (now : Nat) (key : Identity) (bypass : Bool) :
    (c.lookup now key bypass).2.counters.lookups = c.counters.lookups + 1 := by
  have htally : ∀ found, (tally found now bypass).lookups = 1 := by
    intro found
    unfold tally
    split
    · rfl
    · split
      · rfl
      · split
        · rfl
        · split <;> rfl
  have htotals := congrArg ResultCounters.lookups (c.totals_lookup now key bypass)
  rw [ResultCounters.lookups_add, htally] at htotals
  exact htotals

theorem lookups_apply (use : Use) (s : Timed) :
    (use.apply s).results.counters.lookups = s.results.counters.lookups + if use.isLookup then 1 else 0 := by
  cases use with
  | store key outcome ttl => rfl
  | settle key outcome ttl => exact ResultCounters.lookups_eq_of_totals_eq (s.results.totals_settle s.now key outcome ttl)
  | lookup key bypass => exact s.results.lookups_lookup s.now key bypass
  | invalidate key => rfl
  | purge =>
    change (s.results.purge s.now).2.counters.lookups = _
    unfold purge
    dsimp only
    split <;> rfl
  | clear => rfl
  | advance milliseconds => rfl

theorem lookups_used (start : Nat) (uses : List Use) :
    (used start uses).results.counters.lookups = uses.countP Use.isLookup := by
  have hcount := count_along (fun s : Timed => s.results.counters.lookups) lookups_apply ⟨start, {}⟩ uses
  exact hcount.trans (Nat.zero_add _)

theorem IsGauged.apply (h : s.results.IsGauged) (use : Use) : (use.apply s).results.IsGauged := by
  cases use with
  | store key outcome ttl => rfl
  | settle key outcome ttl => exact h.settle s.now key outcome ttl
  | lookup key bypass => exact h.lookup s.now key bypass
  | invalidate key => rfl
  | purge =>
    change (s.results.purge s.now).2.IsGauged
    unfold purge
    dsimp only
    split
    · exact h
    · rfl
  | clear => rfl
  | advance milliseconds => exact h

theorem gauged_used (start : Nat) (uses : List Use) : (used start uses).results.IsGauged := by
  have hempty : (⟨start, {}⟩ : Timed).results.IsGauged := rfl
  exact invariant_along (fun s : Timed => s.results.IsGauged) (fun use _ h => h.apply use) hempty uses

theorem length_without (h : c.HasDistinctKeys) (key : Identity) :
    (c.without key).length + (if (c.find? key).isSome then 1 else 0) = c.size := by
  have hkey : (c.find? key).isSome = true ↔ key ∈ c.entries.map Prod.fst := by
    simp [find?, List.find?_isSome]
  have hcount : c.entries.countP (fun entry => entry.1 = key) = if (c.find? key).isSome then 1 else 0 := by
    rw [if_congr hkey rfl rfl, ← List.Nodup.count h, List.count, List.countP_map]
    rfl
  have hwithout : c.without key = c.entries.filter fun entry => !decide (entry.1 = key) := by simp [without]
  rw [← hcount, hwithout, List.countP_eq_length_filter, Nat.add_comm]
  exact (List.length_eq_length_filter_add _).symm

theorem size_store (h : c.HasDistinctKeys) (now : Nat) (key : Identity) (outcome : Outcome) (ttl : Nat) :
    (c.store now key outcome ttl).size = c.size + if (c.find? key).isNone then 1 else 0 := by
  have hwithout := length_without h key
  have hstore : (c.store now key outcome ttl).size = (c.without key).length + 1 := rfl
  cases hk : c.find? key <;> simp [hk] at hwithout ⊢ <;> omega

theorem balance_lookup (h : c.HasDistinctKeys) (now : Nat) (key : Identity) (bypass : Bool) :
    (c.lookup now key bypass).2.size + (c.lookup now key bypass).2.counters.expired = c.size + c.counters.expired := by
  have hlookup := c.lookedUp now key bypass
  generalize c.lookup now key bypass = looked at hlookup ⊢
  cases hlookup with
  | bypassed => rfl
  | absent _ => rfl
  | expired hk _ =>
    have hwithout := length_without h key
    rw [hk] at hwithout
    change (c.without key).length + (c.counters.expired + 1) = _
    simp at hwithout
    omega
  | @live e _ _ => cases e.outcome <;> rfl

theorem balance_purge (c : Results) (now : Nat) :
    (c.purge now).2.size + (c.purge now).2.counters.expired = c.size + c.counters.expired := by
  have hsplit := List.length_eq_length_filter_add (l := c.entries) fun entry => entry.2.isExpired now
  have hsize : (c.purge now).2.size = (c.entries.filter fun entry => !entry.2.isExpired now).length :=
    congrArg List.length (entries_purge c now)
  have hexpired : (c.purge now).2.counters.expired =
      c.counters.expired + c.entries.countP fun entry => entry.2.isExpired now := by
    simp only [purge]
    split
    · rename_i hnone
      rw [hnone]
      rfl
    · rfl
  rw [hsize, hexpired, List.countP_eq_length_filter, size]
  omega

theorem balance_apply (h : s.results.HasDistinctKeys) (use : Use) :
    (use.apply s).results.size + (use.apply s).results.counters.expired + use.removals s =
      s.results.size + s.results.counters.expired + use.creations s := by
  cases hwrite : use.write? with
  | some write =>
    obtain ⟨key, outcome, ttl⟩ := write
    have hsize := size_store h s.now key outcome ttl
    rw [Use.apply_of_write? hwrite, Use.removals_of_write? hwrite, Use.creations, hwrite]
    change (s.results.store s.now key outcome ttl).size + s.results.counters.expired + 0 = _
    dsimp only
    omega
  | none =>
    rw [Use.creations, hwrite]
    cases use with
    | store => cases hwrite
    | settle key outcome ttl =>
      rw [Use.apply_settle_of_not_cacheable (by simpa [Use.write?] using hwrite)]
      rfl
    | lookup key bypass => exact balance_lookup h s.now key bypass
    | invalidate key =>
      have hwithout := length_without h key
      change (s.results.without key).length + s.results.counters.expired + (if (s.results.find? key).isSome then 1 else 0) = _
      dsimp only
      omega
    | purge => exact balance_purge s.results s.now
    | clear =>
      change 0 + s.results.counters.expired + s.results.size = s.results.size + s.results.counters.expired + 0
      omega
    | advance => rfl

/-- Every entry created is still held, has expired or was removed. -/
theorem balance_used (start : Nat) (uses : List Use) :
    sumAlong Use.apply Use.creations ⟨start, {}⟩ uses =
      (used start uses).results.size + (used start uses).results.counters.expired +
        sumAlong Use.apply Use.removals ⟨start, {}⟩ uses := by
  have hempty : (⟨start, {}⟩ : Timed).results.HasDistinctKeys := .empty
  have hbalance := balance_along (fun s : Timed => s.results.HasDistinctKeys)
    (fun s => s.results.size + s.results.counters.expired) (fun use _ h => h.apply use) (fun use _ h => balance_apply h use)
    hempty uses
  exact (hbalance.trans (Nat.zero_add _)).symm

theorem ncard_held (h : c.HasDistinctKeys) : {key | (c.find? key).isSome}.ncard = c.size := by
  have hcount := ncard_keys h fun _ => true
  simp only [and_true, List.countP_true] at hcount
  simp only [Option.isSome_iff_exists]
  exact hcount

end Results

namespace Ranges

variable {V : Type} {c : Ranges V} {s : Timed V} {network : Network}

def all (c : Ranges V) : List (Range V) := c.v4 ++ c.v6

/-- Whether every range is listed with its family and no network has two. -/
structure Tidy (c : Ranges V) : Prop where
  family : ∀ isV4, ∀ r ∈ c.family isV4, r.network.isV4 = isV4
  distinct : ∀ isV4, ((c.family isV4).map Range.network).Nodup

namespace Tidy

theorem empty : Tidy ({} : Ranges V) where
  family isV4 r hr := by cases isV4 <;> cases hr
  distinct isV4 := by cases isV4 <;> exact .nil

theorem store (h : c.Tidy) (now : Nat) (network : Network) (value : V) (ttl : Nat) :
    (c.store now network value ttl).Tidy where
  family isV4 r hr := isV4_of_mem_store (h.family isV4) hr
  distinct isV4 := by
    rw [family_store]
    split
    · exact Range.nodup_replace (h.distinct network.isV4) ⟨network, value, now + ttl, c.nextSequence⟩
    · exact h.distinct isV4

theorem search (h : c.Tidy) (now : Nat) (isV4 : Bool) (holds : Network → Bool) : (c.search now isV4 holds).2.Tidy where
  family other r hr := h.family other r (mem_of_mem_search hr)
  distinct other := by
    rw [family_search]
    split
    · exact (h.distinct isV4).sublist (List.filter_sublist.map _)
    · exact h.distinct other

theorem apply (h : s.ranges.Tidy) (use : Use V) : (use.apply s).ranges.Tidy := by
  cases use with
  | store network value ttl => exact h.store s.now network value ttl
  | searchAddress a => exact h.search s.now a.unmap.isV4 fun n => n.contains a.unmap
  | searchNetwork n => exact h.search s.now n.isV4 fun m => m.containsNetwork n
  | clear => exact ⟨empty.family, empty.distinct⟩
  | advance milliseconds => exact h

theorem nodup_all (h : c.Tidy) : (c.all.map Range.network).Nodup := by
  rw [all, List.map_append, List.nodup_append]
  refine ⟨h.distinct true, h.distinct false, fun n hn m hm hsame => ?_⟩
  obtain ⟨r, hr, rfl⟩ := List.mem_map.mp hn
  obtain ⟨r', hr', rfl⟩ := List.mem_map.mp hm
  have hfamily := h.family true r hr
  rw [hsame, h.family false r' hr'] at hfamily
  cases hfamily

theorem countP_all (h : c.Tidy) (n : Network) :
    c.all.countP (fun r => r.network = n) = (c.family n.isV4).countP fun r => r.network = n := by
  have hother : ∀ isV4, isV4 ≠ n.isV4 → (c.family isV4).countP (fun r => r.network = n) = 0 := by
    intro isV4 hne
    rw [List.countP_eq_zero]
    intro r hr
    simp only [decide_eq_true_eq]
    rintro rfl
    exact hne (h.family isV4 r hr).symm
  rw [all, List.countP_append]
  cases hn : n.isV4 with
  | true =>
    have hrest := hother false (by simp [hn])
    change _ + (c.family false).countP _ = _
    rw [hrest]
    rfl
  | false =>
    have hrest := hother true (by simp [hn])
    change (c.family true).countP _ + _ = _
    rw [hrest, Nat.zero_add]
    rfl

end Tidy

namespace Use

def isStore : Use V → Bool
  | store _ _ _ => true
  | _ => false

def isSearch : Use V → Bool
  | searchAddress _ => true
  | searchNetwork _ => true
  | _ => false

/-- The ranges whose place a store takes. -/
def replacements : Use V → Timed V → Nat
  | store network _ _, s => s.ranges.all.countP fun r => r.network = network
  | _, _ => 0

def removals : Use V → Timed V → Nat
  | clear, s => s.ranges.size
  | _, _ => 0

end Use

theorem size_eq (c : Ranges V) (isV4 : Bool) : c.size = (c.family isV4).length + (c.family !isV4).length := by
  cases isV4 with
  | true => rfl
  | false => exact Nat.add_comm ..

theorem size_store (c : Ranges V) (now : Nat) (network : Network) (value : V) (ttl : Nat) :
    (c.store now network value ttl).size + (c.family network.isV4).countP (fun r => r.network = network) = c.size + 1 := by
  have hsplit := List.length_eq_length_filter_add (l := c.family network.isV4) fun r => decide (r.network = network)
  rw [List.countP_eq_length_filter, size_eq _ network.isV4, size_eq c network.isV4, family_store, family_store, if_pos rfl,
    if_neg (Bool.not_ne_self _), List.length_append, List.length_singleton]
  simp only [ne_eq, decide_not]
  omega

theorem size_search (c : Ranges V) (now : Nat) (isV4 : Bool) (holds : Network → Bool) :
    (c.search now isV4 holds).2.size + (c.family isV4).countP (fun r => r.isExpired now) = c.size := by
  have hsplit := List.length_eq_length_filter_add (l := c.family isV4) fun r => r.isExpired now
  rw [List.countP_eq_length_filter, size_eq _ isV4, size_eq c isV4, family_search, family_search, if_pos rfl,
    if_neg (Bool.not_ne_self _)]
  omega

theorem counters_withFamily (c : Ranges V) (isV4 : Bool) (rs : List (Range V)) :
    (c.withFamily isV4 rs).counters = { c.counters with entries := (c.withFamily isV4 rs).size } := by
  cases isV4 <;> rfl

theorem counters_store (c : Ranges V) (now : Nat) (network : Network) (value : V) (ttl : Nat) :
    (c.store now network value ttl).counters = { c.counters with entries := (c.store now network value ttl).size } :=
  counters_withFamily ..

theorem expired_dropExpired (c : Ranges V) (now : Nat) (isV4 : Bool) :
    (c.dropExpired now isV4).counters.expired =
      c.counters.expired + (c.family isV4).countP fun r => r.isExpired now := by
  unfold dropExpired
  dsimp only
  split
  · rename_i hnone
    rw [hnone]
    rfl
  · rw [counters_withFamily]

theorem searches_dropExpired (c : Ranges V) (now : Nat) (isV4 : Bool) :
    (c.dropExpired now isV4).counters.searches = c.counters.searches := by
  unfold dropExpired
  dsimp only
  split
  · rfl
  · rw [counters_withFamily]
    rfl

theorem balance_search (c : Ranges V) (now : Nat) (isV4 : Bool) (holds : Network → Bool) :
    (c.search now isV4 holds).2.size + (c.search now isV4 holds).2.counters.expired = c.size + c.counters.expired := by
  have hsize := c.size_search now isV4 holds
  have hexpired : (c.search now isV4 holds).2.counters.expired = (c.dropExpired now isV4).counters.expired := by
    unfold search countSearch
    dsimp only
    split <;> rfl
  rw [hexpired, expired_dropExpired]
  omega

theorem searches_search (c : Ranges V) (now : Nat) (isV4 : Bool) (holds : Network → Bool) :
    (c.search now isV4 holds).2.counters.searches = c.counters.searches + 1 := by
  rw [← searches_dropExpired c now isV4]
  unfold search countSearch RangeCounters.searches
  dsimp only
  split
  · exact Nat.add_right_comm ..
  · exact (Nat.add_assoc ..).symm

theorem searches_apply (use : Use V) (s : Timed V) :
    (use.apply s).ranges.counters.searches = s.ranges.counters.searches + if use.isSearch then 1 else 0 := by
  cases use with
  | store network value ttl =>
    change (s.ranges.store s.now network value ttl).counters.searches = _
    rw [counters_store]
    rfl
  | searchAddress a => exact s.ranges.searches_search s.now a.unmap.isV4 fun n => n.contains a.unmap
  | searchNetwork n => exact s.ranges.searches_search s.now n.isV4 fun m => m.containsNetwork n
  | clear => rfl
  | advance milliseconds => rfl

theorem searches_used (start : Nat) (uses : List (Use V)) :
    (used start uses).ranges.counters.searches = uses.countP Use.isSearch := by
  have hcount := count_along (fun s : Timed V => s.ranges.counters.searches) searches_apply ⟨start, {}⟩ uses
  exact hcount.trans (Nat.zero_add _)

def IsGauged (c : Ranges V) : Prop := c.counters.entries = c.size

theorem isGauged_withFamily (c : Ranges V) (isV4 : Bool) (rs : List (Range V)) : (c.withFamily isV4 rs).IsGauged := rfl

theorem IsGauged.search (h : c.IsGauged) (now : Nat) (isV4 : Bool) (holds : Network → Bool) :
    (c.search now isV4 holds).2.IsGauged := by
  have hdrop : (c.dropExpired now isV4).IsGauged := by
    unfold dropExpired
    dsimp only
    split
    · exact h
    · exact isGauged_withFamily ..
  unfold Ranges.search countSearch
  dsimp only
  split <;> exact hdrop

theorem IsGauged.apply (h : s.ranges.IsGauged) (use : Use V) : (use.apply s).ranges.IsGauged := by
  cases use with
  | store network value ttl => exact isGauged_withFamily ..
  | searchAddress a => exact h.search s.now a.unmap.isV4 fun n => n.contains a.unmap
  | searchNetwork n => exact h.search s.now n.isV4 fun m => m.containsNetwork n
  | clear => rfl
  | advance milliseconds => exact h

theorem gauged_used (start : Nat) (uses : List (Use V)) : (used start uses).ranges.IsGauged := by
  have hempty : (⟨start, {}⟩ : Timed V).ranges.IsGauged := rfl
  exact invariant_along (fun s : Timed V => s.ranges.IsGauged) (fun use _ h => h.apply use) hempty uses

theorem balance_apply (h : s.ranges.Tidy) (use : Use V) :
    (use.apply s).ranges.size + (use.apply s).ranges.counters.expired + (use.replacements s + use.removals s) =
      s.ranges.size + s.ranges.counters.expired + if use.isStore then 1 else 0 := by
  cases use with
  | store network value ttl =>
    have hsize := s.ranges.size_store s.now network value ttl
    have hexpired : (s.ranges.store s.now network value ttl).counters.expired = s.ranges.counters.expired := by
      rw [counters_store]
    have hreplaced := h.countP_all network
    change (s.ranges.store s.now network value ttl).size + (s.ranges.store s.now network value ttl).counters.expired +
      (s.ranges.all.countP (fun r => r.network = network) + 0) = s.ranges.size + s.ranges.counters.expired + 1
    omega
  | searchAddress a => exact s.ranges.balance_search s.now a.unmap.isV4 fun n => n.contains a.unmap
  | searchNetwork n => exact s.ranges.balance_search s.now n.isV4 fun m => m.containsNetwork n
  | clear =>
    change 0 + s.ranges.counters.expired + (0 + s.ranges.size) = s.ranges.size + s.ranges.counters.expired + 0
    omega
  | advance milliseconds => rfl

/-- Every range stored is still held, was replaced, has expired or was cleared. -/
theorem balance_used (start : Nat) (uses : List (Use V)) :
    uses.countP Use.isStore =
      (used start uses).ranges.size + sumAlong Use.apply Use.replacements ⟨start, {}⟩ uses +
        (used start uses).ranges.counters.expired + sumAlong Use.apply Use.removals ⟨start, {}⟩ uses := by
  have hempty : (⟨start, {}⟩ : Timed V).ranges.Tidy := .empty
  have hbalance := balance_along (fun s : Timed V => s.ranges.Tidy)
    (fun s => s.ranges.size + s.ranges.counters.expired) (fun use _ h => h.apply use) (fun use _ h => balance_apply h use)
    hempty uses
  rw [sumAlong_add, sumAlong_eq_countP] at hbalance
  change (used start uses).ranges.size + (used start uses).ranges.counters.expired + _ = 0 + _ at hbalance
  omega

theorem tidy_used (start : Nat) (uses : List (Use V)) : (used start uses).ranges.Tidy :=
  invariant_along (fun s : Timed V => s.ranges.Tidy) (fun use _ h => h.apply use) .empty uses

end Ranges

/-- The accounts of both caches balance in every history. Of the result cache every lookup is counted once, the gauge and
the size are the number of keys that hold something, and every entry created is still held, has expired or was invalidated
or cleared. Of the range cache every search is counted once, the gauge is the size, no network has two ranges, and every
range stored is still held, was replaced, has expired or was cleared. -/
theorem accounts_balance :
    (∀ start (uses : List Results.Use),
      let held := (Results.used start uses).results
      held.counters.hits + held.counters.negativeHits + held.counters.misses + held.counters.bypassed =
          uses.countP Results.Use.isLookup ∧
        held.counters.entries = held.size ∧
        held.size = {key | (held.find? key).isSome}.ncard ∧
        sumAlong Results.Use.apply Results.Use.creations ⟨start, {}⟩ uses =
          held.size + held.counters.expired + sumAlong Results.Use.apply Results.Use.removals ⟨start, {}⟩ uses) ∧
    ∀ (V : Type) start (uses : List (Ranges.Use V)),
      let held := (Ranges.used start uses).ranges
      held.counters.hits + held.counters.misses = uses.countP Ranges.Use.isSearch ∧
        held.counters.entries = held.size ∧
        (held.all.map Range.network).Nodup ∧
        uses.countP Ranges.Use.isStore =
          held.size + sumAlong Ranges.Use.apply Ranges.Use.replacements ⟨start, {}⟩ uses + held.counters.expired +
            sumAlong Ranges.Use.apply Ranges.Use.removals ⟨start, {}⟩ uses := by
  constructor
  · intro start uses
    have hdistinct := (Results.refinesHistory start uses).distinct
    exact ⟨Results.lookups_used start uses, Results.gauged_used start uses, (Results.ncard_held hdistinct).symm,
      Results.balance_used start uses⟩
  · intro V start uses
    exact ⟨Ranges.searches_used start uses, Ranges.gauged_used start uses, (Ranges.tidy_used start uses).nodup_all,
      Ranges.balance_used start uses⟩

end AssetGraph.Cache

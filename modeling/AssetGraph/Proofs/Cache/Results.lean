import AssetGraph.Cache.Results
import Mathlib.Tactic.Common

/-!
# What a key of the result cache holds

The result cache seen as a function from keys to entries. Keeping an outcome sets one key. A lookup gives the unexpired
outcome of its key, and the only entry that it can drop is an expired one under that key.
-/
namespace AssetGraph.Cache.Results

variable {c : Results} {now : Nat} {key k : Identity} {outcome : Outcome} {bypass : Bool} {e : Entry}

structure Invariant (P : Results → Prop) : Prop where
  lookup {c : Results} (now : Nat) (key : Identity) (bypass : Bool) : P c → P (c.lookup now key bypass).2
  settle {c : Results} (now : Nat) (key : Identity) (outcome : Outcome) (ttl : Nat) :
    P c → P (c.settle now key outcome ttl)

theorem find?_without (c : Results) (key k : Identity) :
    (c.withEntries (c.without key)).find? k = if k = key then none else c.find? k := by
  simp only [find?, withEntries, without, List.find?_filter]
  by_cases hk : k = key
  · subst hk
    rw [if_pos rfl, Option.map_eq_none_iff, List.find?_eq_none]
    intro e _ he
    simp at he
  · rw [if_neg hk]
    congr 2
    funext e
    by_cases he : e.1 = k <;> simp [he, hk]

theorem find?_store (c : Results) (now : Nat) (key k : Identity) (outcome : Outcome) (ttl : Nat) :
    (c.store now key outcome ttl).find? k = if k = key then some ⟨outcome, now + ttl⟩ else c.find? k := by
  by_cases hk : k = key
  · simp [store, find?, withEntries, hk]
  · have hrest : (c.store now key outcome ttl).find? k = (c.withEntries (c.without key)).find? k := by
      simp [store, find?, withEntries, Ne.symm hk]
    rw [hrest, find?_without, if_neg hk, if_neg hk]

theorem find?_settle (c : Results) (now : Nat) (key k : Identity) (outcome : Outcome) (ttl : Nat) :
    (c.settle now key outcome ttl).find? k =
      if k = key ∧ outcome.isCacheable then some ⟨outcome, now + ttl⟩ else c.find? k := by
  by_cases ho : outcome.isCacheable
  · simp [settle, ho, find?_store]
  · simp [settle, ho]

/-- What a lookup can come to: it bypasses the cache, or its key holds nothing, an expired entry or an unexpired one. -/
inductive LookedUp (c : Results) (now : Nat) (key : Identity) : Bool → Option Outcome × Results → Prop
  | bypassed : LookedUp c now key true (none, c.countBypass)
  | absent (hk : c.find? key = none) : LookedUp c now key false (none, c.countMiss)
  | expired {e : Entry} (hk : c.find? key = some e) (he : e.expiresAt ≤ now) :
      LookedUp c now key false (none, ((c.withEntries (c.without key)).countExpired 1).countMiss)
  | live {e : Entry} (hk : c.find? key = some e) (he : now < e.expiresAt) :
      LookedUp c now key false (some e.outcome, c.countHit e.outcome)

theorem lookedUp (c : Results) (now : Nat) (key : Identity) (bypass : Bool) :
    c.LookedUp now key bypass (c.lookup now key bypass) := by
  cases bypass with
  | true => exact .bypassed
  | false =>
    simp only [lookup, Bool.false_eq_true, if_false]
    split
    · rename_i hk
      exact .absent hk
    · rename_i e hk
      split
      · rename_i he
        exact .expired hk (of_decide_eq_true he)
      · rename_i he
        exact .live hk (Nat.not_le.mp fun hle => he (decide_eq_true hle))

theorem find?_countHit (c : Results) (outcome : Outcome) (k : Identity) : (c.countHit outcome).find? k = c.find? k := by
  cases outcome <;> rfl

theorem lookup_eq_some_iff :
    (c.lookup now key bypass).1 = some outcome ↔
      bypass = false ∧ ∃ e, c.find? key = some e ∧ now < e.expiresAt ∧ e.outcome = outcome := by
  have h := c.lookedUp now key bypass
  generalize c.lookup now key bypass = looked at h ⊢
  cases h with
  | bypassed => simp
  | absent hk => simp [hk]
  | expired hk he => simp [hk, Nat.not_lt.mpr he]
  | live hk he => simp [hk, he]

/-- A lookup that does not bypass the cache leaves under its key what has not expired, and the other keys alone. -/
theorem find?_lookup (c : Results) (now : Nat) (key k : Identity) (bypass : Bool) :
    (c.lookup now key bypass).2.find? k =
      if k = key ∧ bypass = false then (c.find? k).filter fun e => !e.isExpired now else c.find? k := by
  have h := c.lookedUp now key bypass
  generalize c.lookup now key bypass = looked at h ⊢
  by_cases hkey : k = key
  · subst hkey
    cases h with
    | bypassed =>
      rw [if_neg nofun]
      rfl
    | absent hk =>
      rw [if_pos ⟨rfl, rfl⟩, hk]
      exact hk
    | expired hk he =>
      rw [if_pos ⟨rfl, rfl⟩, hk, Option.filter_some, Entry.isExpired, decide_eq_true he]
      exact (find?_without c k k).trans (if_pos rfl)
    | live hk he =>
      rw [if_pos ⟨rfl, rfl⟩, hk, Option.filter_some, Entry.isExpired, decide_eq_false (Nat.not_le.mpr he)]
      exact (find?_countHit ..).trans hk
  · rw [if_neg fun hsame => hkey hsame.1]
    cases h with
    | bypassed => rfl
    | absent hk => rfl
    | expired hk he =>
      change (c.withEntries (c.without key)).find? k = c.find? k
      rw [find?_without, if_neg hkey]
    | live hk he => exact find?_countHit ..

theorem find?_of_find?_lookup (h : (c.lookup now key bypass).2.find? k = some e) : c.find? k = some e := by
  rw [find?_lookup] at h
  split at h
  · exact (Option.filter_eq_some_iff.mp h).1
  · exact h

theorem find?_lookup_of_ne (hk : k ≠ key) : (c.lookup now key bypass).2.find? k = c.find? k := by
  rw [find?_lookup, if_neg fun hsame => hk hsame.1]

theorem find?_lookup_of_live (h : c.find? k = some e) (he : now < e.expiresAt) :
    (c.lookup now key bypass).2.find? k = some e := by
  rw [find?_lookup, h]
  simp [Entry.isExpired, he]

/-- What a lookup gives, and what it leaves under its key, is decided by what the key holds. -/
theorem lookup_congr {c' : Results} (h : c'.find? key = c.find? key) :
    (c'.lookup now key bypass).1 = (c.lookup now key bypass).1 ∧
      (c'.lookup now key bypass).2.find? key = (c.lookup now key bypass).2.find? key := by
  constructor
  · apply Option.ext
    intro outcome
    rw [lookup_eq_some_iff, lookup_eq_some_iff, h]
  · rw [find?_lookup, find?_lookup, h]

end AssetGraph.Cache.Results

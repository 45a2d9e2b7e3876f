import AssetGraph.Cache.Ranges
import Mathlib.Tactic.Common

/-!
# Which range answers a search

A search is answered by the winner among the unexpired ranges that hold the target. It drops the expired ranges of one
family; storing puts one range in the place of those for the same network. Both leave the other family alone.
-/
namespace AssetGraph.Cache

variable {V : Type}

theorem Range.mem_of_best? {rs : List (Range V)} {r : Range V} (h : Range.best? rs = some r) : r ∈ rs := by
  induction rs generalizing r with
  | nil => simp [Range.best?] at h
  | cons head rest ih =>
    simp only [Range.best?] at h
    split at h
    · cases h
      exact List.mem_cons_self
    · rename_i s hs
      split at h
      · cases h
        exact List.mem_cons_of_mem _ (ih hs)
      · cases h
        exact List.mem_cons_self

theorem Range.exists_best? {rs : List (Range V)} {r : Range V} (h : r ∈ rs) : ∃ w, Range.best? rs = some w := by
  cases rs with
  | nil => cases h
  | cons head rest =>
    simp only [Range.best?]
    split
    · exact ⟨_, rfl⟩
    · split <;> exact ⟨_, rfl⟩

theorem Range.length_le_of_best? {rs : List (Range V)} {w : Range V} (h : Range.best? rs = some w) :
    ∀ r ∈ rs, r.network.length ≤ w.network.length := by
  induction rs generalizing w with
  | nil => exact nofun
  | cons head rest ih =>
    intro r hr
    simp only [Range.best?] at h
    cases hrest : Range.best? rest with
    | none =>
      simp only [hrest, Option.some.injEq] at h
      subst h
      rcases List.mem_cons.mp hr with rfl | hr
      · exact Nat.le_refl _
      · obtain ⟨s, hs⟩ := Range.exists_best? hr
        rw [hrest] at hs
        cases hs
    | some s =>
      have hs := ih hrest
      simp only [hrest, Range.beats, Bool.or_eq_true, Bool.and_eq_true, decide_eq_true_eq, beq_iff_eq] at h
      split at h <;> cases h <;> rcases List.mem_cons.mp hr with rfl | hr
      · omega
      · exact hs r hr
      · exact Nat.le_refl _
      · have := hs r hr
        omega

namespace Ranges

variable {c : Ranges V} {now ttl : Nat} {isV4 other : Bool} {holds : Network → Bool} {r : Range V}
  {network : Network} {value : V}

def winner? (c : Ranges V) (now : Nat) (isV4 : Bool) (holds : Network → Bool) : Option (Range V) :=
  Range.best? ((c.family isV4).filter fun r => !r.isExpired now && holds r.network)

def aroundAddress? (c : Ranges V) (now : Nat) (a : Address) : Option (Range V) :=
  c.winner? now a.unmap.isV4 fun n => n.contains a.unmap

def aroundNetwork? (c : Ranges V) (now : Nat) (n : Network) : Option (Range V) :=
  c.winner? now n.isV4 fun m => m.containsNetwork n

/-- The range that answers a search is stored, unexpired and around the target. -/
theorem winner?_spec (h : c.winner? now isV4 holds = some r) :
    r ∈ c.family isV4 ∧ now < r.expiresAt ∧ holds r.network = true := by
  have hr := Range.mem_of_best? h
  simp only [List.mem_filter, Range.isExpired, Bool.and_eq_true, Bool.not_eq_true', decide_eq_false_iff_not,
    Nat.not_le] at hr
  exact ⟨hr.1, hr.2.1, hr.2.2⟩

theorem family_withFamily (c : Ranges V) (isV4 other : Bool) (rs : List (Range V)) :
    (c.withFamily isV4 rs).family other = if other = isV4 then rs else c.family other := by
  cases isV4 <;> cases other <;> rfl

theorem family_dropExpired (c : Ranges V) (now : Nat) (isV4 other : Bool) :
    (c.dropExpired now isV4).family other =
      if other = isV4 then (c.family isV4).filter fun r => !r.isExpired now else c.family other := by
  by_cases hold : (c.family isV4).countP (fun r => r.isExpired now) = 0
  · have hkept : (c.family isV4).filter (fun r => !r.isExpired now) = c.family isV4 := by
      rw [List.filter_eq_self]
      intro r hr
      simpa using List.countP_eq_zero.mp hold r hr
    rw [hkept]
    by_cases hb : other = isV4 <;> simp [dropExpired, hold, hb]
  · have hrest : (c.dropExpired now isV4).family other =
        (c.withFamily isV4 ((c.family isV4).filter fun r => !r.isExpired now)).family other := by
      unfold dropExpired
      simp only [hold, if_false]
      rfl
    rw [hrest, family_withFamily]

theorem family_search (c : Ranges V) (now : Nat) (isV4 other : Bool) (holds : Network → Bool) :
    (c.search now isV4 holds).2.family other =
      if other = isV4 then (c.family isV4).filter fun r => !r.isExpired now else c.family other := by
  rw [← family_dropExpired]
  unfold search countSearch
  dsimp only
  split <;> rfl

theorem family_store (c : Ranges V) (now : Nat) (network : Network) (value : V) (ttl : Nat) (other : Bool) :
    (c.store now network value ttl).family other =
      if other = network.isV4 then
        (c.family network.isV4).filter (fun r => r.network ≠ network) ++ [⟨network, value, now + ttl, c.nextSequence⟩]
      else c.family other := by
  unfold store
  exact family_withFamily _ _ _ _

theorem mem_of_mem_search (h : r ∈ (c.search now isV4 holds).2.family other) : r ∈ c.family other := by
  rw [family_search] at h
  split at h
  · rename_i hb
    exact hb ▸ (List.mem_filter.mp h).1
  · exact h

theorem mem_of_mem_store (h : r ∈ (c.store now network value ttl).family other) :
    r ∈ c.family other ∧ (other = network.isV4 → r.network ≠ network) ∨
      other = network.isV4 ∧ r = ⟨network, value, now + ttl, c.nextSequence⟩ := by
  rw [family_store] at h
  split at h
  · rename_i hb
    rcases List.mem_append.mp h with h | h
    · obtain ⟨hr, hne⟩ := List.mem_filter.mp h
      exact .inl ⟨hb ▸ hr, fun _ => of_decide_eq_true hne⟩
    · exact .inr ⟨hb, List.mem_singleton.mp h⟩
  · rename_i hb
    exact .inl ⟨h, fun he => absurd he hb⟩

theorem isV4_of_mem_store (hlisted : ∀ r ∈ c.family other, r.network.isV4 = other)
    (h : r ∈ (c.store now network value ttl).family other) : r.network.isV4 = other := by
  rcases mem_of_mem_store h with ⟨hold, -⟩ | ⟨rfl, rfl⟩
  · exact hlisted r hold
  · rfl

theorem mem_store_self (c : Ranges V) (now : Nat) (network : Network) (value : V) (ttl : Nat) :
    ⟨network, value, now + ttl, c.nextSequence⟩ ∈ (c.store now network value ttl).family network.isV4 := by
  rw [family_store, if_pos rfl]
  exact List.mem_append_right _ List.mem_cons_self

theorem mem_store_of_ne (h : r ∈ c.family other) (hne : r.network ≠ network) :
    r ∈ (c.store now network value ttl).family other := by
  rw [family_store]
  split
  · rename_i hfamily
    exact List.mem_append_left _ (List.mem_filter.mpr ⟨hfamily ▸ h, decide_eq_true hne⟩)
  · exact h

theorem family_clear (c : Ranges V) (isV4 : Bool) : c.clear.family isV4 = [] := by
  cases isV4 <;> rfl

end Ranges
end AssetGraph.Cache

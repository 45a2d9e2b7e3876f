import AssetGraph.Proofs.Cache.Ranges
import AssetGraph.Proofs.Cache.Results

/-!
# What the caches hold at a moment

The entry of a key and the ranges of a family, those that have expired left out. No lookup and no search changes them,
now or later; keeping an outcome changes one key, and storing a range changes what is there for one network.
-/
namespace AssetGraph.Cache

/-- One range stored: a new one, or one that takes the place of the range of its network. -/
inductive Range.StoresOne {V : Type} (range : Range V) : List (Range V) → List (Range V) → Prop
  | new {rs : List (Range V)} (hnew : ∀ r ∈ rs, r.network ≠ range.network) : StoresOne range rs (rs ++ [range])
  | replaced {before after : List (Range V)} {old : Range V} (hsame : old.network = range.network) :
      StoresOne range (before ++ old :: after) (before ++ after ++ [range])

/-- Where a network has one range, storing takes away no more than that. -/
theorem Range.storesOne_of_nodup {V : Type} {rs : List (Range V)} (h : (rs.map Range.network).Nodup)
    (range : Range V) : range.StoresOne rs (rs.filter (fun r => r.network ≠ range.network) ++ [range]) := by
  have hkept : ∀ rest : List (Range V), (∀ r ∈ rest, r.network ≠ range.network) →
      rest.filter (fun r => r.network ≠ range.network) = rest := by
    intro rest hrest
    rw [List.filter_eq_self]
    exact fun r hr => decide_eq_true (hrest r hr)
  by_cases hnew : ∀ r ∈ rs, r.network ≠ range.network
  · rw [hkept rs hnew]
    exact .new hnew
  · push Not at hnew
    obtain ⟨old, hold, hsame⟩ := hnew
    obtain ⟨before, after, rfl⟩ := List.append_of_mem hold
    rw [List.map_append, List.map_cons, hsame, List.nodup_append, List.nodup_cons] at h
    obtain ⟨-, ⟨hafter, -⟩, hbefore⟩ := h
    have hfirst : ∀ r ∈ before, r.network ≠ range.network := fun r hr =>
      hbefore _ (List.mem_map_of_mem hr) _ List.mem_cons_self
    have hrest : ∀ r ∈ after, r.network ≠ range.network := fun r hr heq =>
      hafter (heq ▸ List.mem_map_of_mem hr)
    rw [List.filter_append, List.filter_cons_of_neg (by simp [hsame]), hkept before hfirst, hkept after hrest]
    exact .replaced hsame

theorem Range.nodup_replace {V : Type} {rs : List (Range V)} (h : (rs.map Range.network).Nodup) (range : Range V) :
    ((rs.filter (fun r => r.network ≠ range.network) ++ [range]).map Range.network).Nodup := by
  have hother : range.network ∉ (rs.filter (fun r => r.network ≠ range.network)).map Range.network := by simp
  rw [List.map_append, List.map_cons, List.map_nil, List.nodup_append]
  refine ⟨h.sublist (List.filter_sublist.map _), List.pairwise_singleton .., fun n hn m hm heq => ?_⟩
  rw [List.mem_singleton.mp hm] at heq
  exact hother (heq ▸ hn)

namespace Results

variable {c : Results} {now moment : Nat} {key k : Identity} {bypass : Bool} {outcome : Outcome} {e : Entry}

def unexpired? (c : Results) (moment : Nat) (key : Identity) : Option Entry :=
  (c.find? key).filter fun e => !e.isExpired moment

theorem unexpired?_eq_some_iff : c.unexpired? moment key = some e ↔ c.find? key = some e ∧ moment < e.expiresAt := by
  simp [unexpired?, Option.filter_eq_some_iff, Entry.isExpired]

theorem unexpired?_lookup (h : now ≤ moment) :
    (c.lookup now key bypass).2.unexpired? moment k = c.unexpired? moment k := by
  apply Option.ext
  intro e
  rw [unexpired?_eq_some_iff, unexpired?_eq_some_iff]
  constructor
  · rintro ⟨hfound, hlive⟩
    exact ⟨find?_of_find?_lookup hfound, hlive⟩
  · rintro ⟨hfound, hlive⟩
    exact ⟨find?_lookup_of_live hfound (Nat.lt_of_le_of_lt h hlive), hlive⟩

theorem unexpired?_settle (ttl : Nat) (h : ¬ (k = key ∧ outcome.isCacheable)) :
    (c.settle now key outcome ttl).unexpired? moment k = c.unexpired? moment k := by
  simp only [unexpired?, find?_settle, if_neg h]

end Results

namespace Ranges

variable {V : Type} {c : Ranges V} {now moment ttl : Nat} {isV4 other : Bool} {holds : Network → Bool} {r : Range V}
  {network : Network} {value : V}

def unexpired (c : Ranges V) (moment : Nat) (isV4 : Bool) : List (Range V) :=
  (c.family isV4).filter fun r => !r.isExpired moment

theorem mem_unexpired : r ∈ c.unexpired moment isV4 ↔ r ∈ c.family isV4 ∧ moment < r.expiresAt := by
  simp [unexpired, Range.isExpired]

theorem unexpired_of_le (h : now ≤ moment) :
    c.unexpired moment isV4 = (c.unexpired now isV4).filter fun r => !r.isExpired moment := by
  rw [unexpired, unexpired, List.filter_filter]
  apply List.filter_congr
  intro r _
  by_cases hexpired : r.expiresAt ≤ moment
  · simp [Range.isExpired, hexpired]
  · have hlive : ¬ r.expiresAt ≤ now := by omega
    simp [Range.isExpired, hexpired, hlive]

theorem unexpired_search (h : now ≤ moment) :
    (c.search now isV4 holds).2.unexpired moment other = c.unexpired moment other := by
  by_cases hb : other = isV4
  · rw [unexpired_of_le (c := c) h, unexpired, family_search, if_pos hb, hb, unexpired]
  · rw [unexpired, family_search, if_neg hb, unexpired]

theorem unexpired_searchAddress (a : Address) (h : now ≤ moment) :
    (c.searchAddress now a).2.unexpired moment other = c.unexpired moment other := unexpired_search h

theorem unexpired_searchNetwork (n : Network) (h : now ≤ moment) :
    (c.searchNetwork now n).2.unexpired moment other = c.unexpired moment other := unexpired_search h

theorem exists_winner? (hr : r ∈ c.unexpired now isV4) (hholds : holds r.network = true) :
    ∃ w, c.winner? now isV4 holds = some w := by
  obtain ⟨hmem, hlive⟩ := mem_unexpired.mp hr
  apply Range.exists_best?
  rw [List.mem_filter]
  exact ⟨hmem, by simp [Range.isExpired, hlive, hholds]⟩

theorem unexpired_store (httl : 0 < ttl) :
    (c.store now network value ttl).unexpired now other =
      if other = network.isV4 then
        (c.unexpired now other).filter (fun r => r.network ≠ network) ++ [⟨network, value, now + ttl, c.nextSequence⟩]
      else c.unexpired now other := by
  rw [unexpired, family_store]
  split
  · rename_i hb
    have hlive : now < now + ttl := Nat.lt_add_of_pos_right httl
    have hstored : List.filter (fun r => !r.isExpired now) [(⟨network, value, now + ttl, c.nextSequence⟩ : Range V)] =
        [⟨network, value, now + ttl, c.nextSequence⟩] := by
      simp [Range.isExpired, hlive]
    rw [List.filter_append, hstored, hb, unexpired, List.filter_filter, List.filter_filter]
    congr 1
    apply List.filter_congr
    intro r _
    exact Bool.and_comm ..
  · rfl

end Ranges
end AssetGraph.Cache

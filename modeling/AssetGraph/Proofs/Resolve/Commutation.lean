import AssetGraph.Proofs.Resolve.Footprint
import AssetGraph.Proofs.Resolve.Outcomes

/-!
# Queries that do not meet

Plans with different keys of which at most one searches see nothing of each other. In either order they go the same way,
and leave the same in the caches; counts are sums, and a sum does not depend on the order.
-/
namespace AssetGraph.Resolve

variable {α β : Type} {c : Config} {world : World} {client : Client} {f f' : Footprint} {s s' : State} {q₁ q₂ : Query}
  {k : Identity}

/-- Whether nothing that one plan leaves in the caches lies within the other's footprint. -/
structure Footprint.Apart (f f' : Footprint) : Prop where
  key : f.key ≠ f'.key
  searches : f.searches = false ∨ f'.searches = false

theorem Footprint.Apart.symm (h : f.Apart f') : f'.Apart f := ⟨h.key.symm, h.searches.symm⟩

theorem Footprint.Alike.tally (h : f.Alike world s s') :
    Cache.Results.tally (s'.results.find? f.key) s'.now f.ignoreCache =
      Cache.Results.tally (s.results.find? f.key) s.now f.ignoreCache := by
  cases hignore : f.ignoreCache with
  | true => rfl
  | false => rw [h.kept hignore, h.now]

namespace Plan

theorem exists_run_client (client : Client) (p : Plan α) (s : State) : ∃ a, (p.run client.world s).1 = some a := by
  induction p generalizing s with
  | done a => exact ⟨a, rfl⟩
  | lookUp key ignoreCache next ih => exact ih _ _
  | findAddress a next ih => exact ih _ _
  | findNetwork n next ih => exact ih _ _
  | ask r next ih => exact ih (client r) _
  | remember n allocation ttl next ih => exact ih _
  | keep key outcome ttl next ih => exact ih _

namespace Within

variable {p : Plan α} {p' : Plan β}

theorem find?_run_outside (hp : p.Within f) (hk : k ≠ f.key) :
    (p.run world s).2.results.find? k = s.results.find? k :=
  hp.find?_run_of_not_kept (.inl hk) fun hkept => hk (hp.eq_key_of_kept hkept)

theorem totals_run_alike (hp : p.Within f) (h : f.Alike world s s') :
    ∃ counted : Cache.ResultCounters,
      (p.run world s).2.results.counters.totals = s.results.counters.totals + counted ∧
        (p.run world s').2.results.counters.totals = s'.results.counters.totals + counted := by
  induction hp generalizing s s' with
  | done a => exact ⟨{}, rfl, rfl⟩
  | lookUp _ ih =>
    obtain ⟨counted, hleft, hright⟩ := ih _ h.lookUp
    simp only [run, h.lookup_fst]
    refine ⟨Cache.Results.tally (s.results.find? f.key) s.now f.ignoreCache + counted, hleft.trans ?_, hright.trans ?_⟩
    · rw [Cache.Results.totals_lookup, Cache.ResultCounters.add_assoc]
    · rw [Cache.Results.totals_lookup, h.tally, Cache.ResultCounters.add_assoc]
  | @findAddress a next searches _ ih =>
    simp only [run, h.searched searches fun c now => c.searchAddress now a]
    exact ih _ (h.withRanges (s.ranges.searchAddress s.now a).2)
  | @findNetwork n next searches _ ih =>
    simp only [run, h.searched searches fun c now => c.searchNetwork now n]
    exact ih _ (h.withRanges (s.ranges.searchNetwork s.now n).2)
  | @ask r next _ ih =>
    simp only [run, h.answered]
    cases world s.requests r with
    | none => exact ⟨{}, rfl, rfl⟩
    | some answer => exact ih answer (h.ask r)
  | @remember n allocation ttl next searches _ ih =>
    simp only [run, h.searched searches fun c now => c.store now n allocation ttl]
    exact ih (h.withRanges (s.ranges.store s.now n allocation ttl))
  | @keep outcome ttl next _ ih =>
    obtain ⟨counted, hleft, hright⟩ := ih (h.keep outcome ttl)
    simp only [Cache.Results.totals_settle] at hleft hright
    exact ⟨counted, hleft, hright⟩

/-- A plan goes as if the other had not been there. -/
theorem alike_after (hp : p.Within f) (h : f.Apart f') : f'.Alike client.world s (p.run client.world s).2 where
  now := now_run p s
  ranges searches := hp.ranges_run (h.searches.resolve_right (by simp [searches]))
  kept _ := hp.find?_run_outside h.key.symm
  answers _ _ := rfl

theorem find?_run_after (hp : p.Within f) (hp' : p'.Within f') (h : f.Apart f') (hk : k ≠ f.key) :
    (p'.run client.world (p.run client.world s).2).2.results.find? k =
      (p'.run client.world s).2.results.find? k := by
  by_cases hk' : k = f'.key
  · subst hk'
    exact hp'.find?_run_alike (hp.alike_after h) (.inl (hp.find?_run_outside hk))
  · rw [hp'.find?_run_outside hk', hp'.find?_run_outside hk', hp.find?_run_outside hk]

theorem find?_run_comm (hp : p.Within f) (hp' : p'.Within f') (h : f.Apart f') (s : State) (k : Identity) :
    (p'.run client.world (p.run client.world s).2).2.results.find? k =
      (p.run client.world (p'.run client.world s).2).2.results.find? k := by
  by_cases hk : k = f.key
  · have hk' : k ≠ f'.key := hk ▸ h.key
    rw [hp'.find?_run_outside hk', hp'.find?_run_after hp h.symm hk']
  · rw [hp.find?_run_outside hk, hp.find?_run_after hp' h hk]

theorem ranges_run_comm (hp : p.Within f) (hp' : p'.Within f') (h : f.Apart f') (s : State) :
    (p'.run client.world (p.run client.world s).2).2.ranges =
      (p.run client.world (p'.run client.world s).2).2.ranges := by
  rcases h.searches with hf | hf'
  · rw [hp.ranges_run hf]
    exact hp'.ranges_run_alike (hp.alike_after h) (hp.ranges_run hf)
  · rw [hp'.ranges_run hf']
    exact (hp.ranges_run_alike (hp'.alike_after h.symm) (hp'.ranges_run hf')).symm

theorem totals_run_comm (hp : p.Within f) (hp' : p'.Within f') (h : f.Apart f') (s : State) :
    (p'.run client.world (p.run client.world s).2).2.results.counters.totals =
      (p.run client.world (p'.run client.world s).2).2.results.counters.totals := by
  obtain ⟨counted, hfirst, hsecond⟩ := hp.totals_run_alike (hp'.alike_after (s := s) h.symm)
  obtain ⟨counted', hfirst', hsecond'⟩ := hp'.totals_run_alike (hp.alike_after (s := s) h)
  rw [hsecond, hsecond', hfirst, hfirst', Cache.ResultCounters.add_right_comm]

/-- A plan comes to the same and sends the same before and after the other. -/
theorem goes_alike (hp : p.Within f) (h : f.Alike client.world s s') :
    ∃ a sent, (p.run client.world s).1 = some a ∧ (p.run client.world s').1 = some a ∧
      (p.run client.world s).2.requests = s.requests ++ sent ∧
      (p.run client.world s').2.requests = s'.requests ++ sent := by
  obtain ⟨a, ha⟩ := exists_run_client client p s
  obtain ⟨hresult, hevents, -⟩ := hp.run_alike h
  refine ⟨a, _, ha, hresult.trans ha, requests_run p s, ?_⟩
  rw [requests_run, hevents]

end Within
end Plan

theorem footprint_apart (hne : q₁ ≠ q₂) (hsearch : ¬(q₁.IsNetworkSearch ∧ q₂.IsNetworkSearch)) (b₁ b₂ : Bool) :
    (footprint q₁ b₁).Apart (footprint q₂ b₂) where
  key hkey := hne (Query.identity_inj hkey)
  searches := (not_and_or.mp hsearch).imp decide_eq_false decide_eq_false

/-- After any history two different queries that are not both searches for a network can change places. At one instant,
against a client that gives each request one answer, each comes to the same and sends the same whichever is first; and
both orders leave the same kept outcomes, the same allocations and the same counts. -/
theorem execute_comm (h : Reachable c world s) (client : Client) (hne : q₁ ≠ q₂)
    (hsearch : ¬(q₁.IsNetworkSearch ∧ q₂.IsNetworkSearch)) (b₁ b₂ : Bool) :
    let run₁ := (execute c q₁ b₁).run client.world
    let run₂ := (execute c q₂ b₂).run client.world
    let s₁ := (run₁ s).2
    let s₂ := (run₂ s).2
    let s₁₂ := (run₂ s₁).2
    let s₂₁ := (run₁ s₂).2
    (∃ o sent, (run₁ s).1 = some o ∧ (run₁ s₂).1 = some o ∧
        s₁.requests = s.requests ++ sent ∧ s₂₁.requests = s₂.requests ++ sent) ∧
      (∃ o sent, (run₂ s).1 = some o ∧ (run₂ s₁).1 = some o ∧
        s₂.requests = s.requests ++ sent ∧ s₁₂.requests = s₁.requests ++ sent) ∧
      (∀ key, s₁₂.results.find? key = s₂₁.results.find? key) ∧
      s₁₂.results.entries.Perm s₂₁.results.entries ∧ s₁₂.results.counters = s₂₁.results.counters ∧
      s₁₂.ranges = s₂₁.ranges := by
  intro run₁ run₂ s₁ s₂ s₁₂ s₂₁
  have hwithin₁ : (execute c q₁ b₁).Within (footprint q₁ b₁) := execute_within c q₁ b₁
  have hwithin₂ : (execute c q₂ b₂).Within (footprint q₂ b₂) := execute_within c q₂ b₂
  have hapart := footprint_apart hne hsearch b₁ b₂
  have hsame : ∀ key, s₁₂.results.find? key = s₂₁.results.find? key := hwithin₁.find?_run_comm hwithin₂ hapart s
  have hsound₁₂ : s₁₂.results.Sound := Plan.invariant_run .sound _ (Plan.invariant_run .sound _ h.resultsSound)
  have hsound₂₁ : s₂₁.results.Sound := Plan.invariant_run .sound _ (Plan.invariant_run .sound _ h.resultsSound)
  have hgauged₁₂ : s₁₂.results.IsGauged := Plan.invariant_run .gauged _ (Plan.invariant_run .gauged _ h.resultsGauged)
  have hgauged₂₁ : s₂₁.results.IsGauged := Plan.invariant_run .gauged _ (Plan.invariant_run .gauged _ h.resultsGauged)
  have hperm : s₁₂.results.entries.Perm s₂₁.results.entries := hsound₁₂.entries_perm hsound₂₁ hsame
  exact ⟨hwithin₁.goes_alike (hwithin₂.alike_after hapart.symm), hwithin₂.goes_alike (hwithin₁.alike_after hapart),
    hsame, hperm, hgauged₁₂.counters_eq hgauged₂₁ hperm (hwithin₁.totals_run_comm hwithin₂ hapart s),
    hwithin₁.ranges_run_comm hwithin₂ hapart s⟩

/-- A search past the cache, and a search for a name whose kept absence has run out: in both orders one lookup goes past
the cache, one more misses, and one entry is dropped as expired before it is kept anew. -/
theorem execute_comm_after_expiry :
    let client := Client.ofAllocation { startAddress := "1.1.1.0", endAddress := "1.1.1.255" }
    let q₁ : Query := ⟨"rdap-ip-network", .search, "1.1.1.1", "global"⟩
    let q₂ : Query := ⟨"dns", .search, "example.net", "global"⟩
    let s := after {} client.world [.execute q₂ false, .advance 86400000, .execute q₁ false] {}
    Reachable {} client.world s ∧ q₁ ≠ q₂ ∧ ¬(q₁.IsNetworkSearch ∧ q₂.IsNetworkSearch) ∧
      s.results.counters = { misses := 2, entries := 2 } ∧
      ((execute {} q₂ false).run client.world ((execute {} q₁ true).run client.world s).2).2.results.counters =
        { misses := 3, bypassed := 1, expired := 1, entries := 2 } ∧
      ((execute {} q₁ true).run client.world ((execute {} q₂ false).run client.world s).2).2.results.counters =
        { misses := 3, bypassed := 1, expired := 1, entries := 2 } := by
  intro client q₁ q₂ s
  have hs : Reachable {} client.world s := (Reachable.fresh 0).after _
  have hne : q₁ ≠ q₂ := by decide
  have hsearch : ¬(q₁.IsNetworkSearch ∧ q₂.IsNetworkSearch) := by decide
  have hcounters := (execute_comm hs client hne hsearch true false).2.2.2.2.1
  have hfirst : ((execute {} q₂ false).run client.world
      ((execute {} q₁ true).run client.world s).2).2.results.counters =
        { misses := 3, bypassed := 1, expired := 1, entries := 2 } := by decide +kernel
  exact ⟨hs, hne, hsearch, by decide +kernel, hfirst, hcounters.symm.trans hfirst⟩

end AssetGraph.Resolve

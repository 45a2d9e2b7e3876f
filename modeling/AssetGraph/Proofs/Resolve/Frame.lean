import AssetGraph.Proofs.Resolve.Allocations

/-!
# What an execution leaves alone

An execution changes at most the outcome of its own query and one allocation, and an error that may not be kept, or a
scope that is not served, changes nothing.
-/
namespace AssetGraph.Resolve

variable {c : Config} {world : World} {q : Query} {s : State} {ignoreCache : Bool} {key : Identity} {e : QueryError}
  {o : Outcome}

theorem sameOutcome_of_ne (h : ∀ type, ItemType.ofName? q.type = some type →
      key ≠ ⟨type.source, q.method, q.scope, q.type, q.text⟩) :
    SameOutcome key s ((execute c q ignoreCache).run world s).2 := by
  apply Plan.sameOutcome_run
  intro hkept
  obtain ⟨type, htype⟩ := known_of_mem_events hkept
  rw [execute_known c htype] at hkept
  obtain ⟨hkey, -⟩ := Task.run_serve_of_kept hkept
  apply h type htype
  rw [hkey, ← ItemType.name_of_ofName? htype]
  rfl

theorem sameAllocations_of_error (he : ((execute c q ignoreCache).run world s).1 = some (.error e)) :
    SameAllocations s ((execute c q ignoreCache).run world s).2 := by
  apply Plan.sameAllocations_run
  intro n hn
  obtain ⟨-, -, ⟨items, hitems⟩, -⟩ := execute_of_remembered hn
  rw [he] at hitems
  cases hitems

theorem sameOutcome_of_not_cacheable (he : ((execute c q ignoreCache).run world s).1 = some (.error e))
    (hkind : e.isCacheable = false) (key : Identity) :
    SameOutcome key s ((execute c q ignoreCache).run world s).2 := by
  apply Plan.sameOutcome_run
  intro hkept
  obtain ⟨type, htype⟩ := known_of_mem_events hkept
  rw [execute_known c htype] at hkept he
  obtain ⟨-, o, ho, hcacheable⟩ := Task.run_serve_of_kept hkept
  rw [he] at ho
  cases ho
  rw [Outcome.isCacheable, hkind] at hcacheable
  cases hcacheable

/-- In every history an execution changes no unexpired outcome but the one under the identity of its query. It changes
the unexpired allocations only as a search for a network that succeeds after asking, and then by one allocation, new or
in the place of the one for its network. An error that says that the scope, the query or the response is not as it has
to be changes nothing, no error changes the allocations, and where the scope is not served, not even a counter
changes. -/
theorem execute_frame (h : Reachable c world s) (q : Query) (ignoreCache : Bool) :
    let plan := execute c q ignoreCache
    let after := (plan.run world s).2
    (∀ key, (∀ type, ItemType.ofName? q.type = some type → key ≠ ⟨type.source, q.method, q.scope, q.type, q.text⟩) →
      SameOutcome key s after) ∧
    (SameAllocations s after ∨
      ItemType.ofName? q.type = some .ipNetwork ∧ q.method = .search ∧
        (∃ items, (plan.run world s).1 = some (.ok items)) ∧ (∃ request, .asked request ∈ plan.events world s) ∧
        ∃ range : Cache.Range Rdap.IpNetwork, range.expiresAt = s.now + lifetime c .ipNetwork ∧
          range.StoresOne (s.ranges.unexpired s.now range.network.isV4)
            (after.ranges.unexpired s.now range.network.isV4) ∧
          after.ranges.unexpired s.now (!range.network.isV4) = s.ranges.unexpired s.now (!range.network.isV4)) ∧
    (∀ e, (plan.run world s).1 = some (.error e) →
      e.kind = .noScope ∨ e.kind = .malformedInput ∨ e.kind = .unexpectedResponse →
      SameAllocations s after ∧ ∀ key, SameOutcome key s after) ∧
    (∀ e, (plan.run world s).1 = some (.error e) → SameAllocations s after) ∧
    ∀ type, ItemType.ofName? q.type = some type → q.scope ≠ globalScope →
      plan.events world s = [] ∧ ∃ e, e.kind = .noScope ∧ plan.run world s = (some (.error e), s) := by
  intro plan after
  refine ⟨fun key hkey => sameOutcome_of_ne hkey, ?_, ?_, fun e he => sameAllocations_of_error he, ?_⟩
  · rcases h.allocationsSound.execute_cases world q ignoreCache with hsame | ⟨n, hn, hpos⟩
    · exact .inl hsame
    · right
      obtain ⟨htype, hmethod, hitems, hasked, -⟩ := execute_of_remembered hn
      obtain ⟨range, rfl, hexpires, hafter⟩ := unexpired_of_remembered hn hpos
      refine ⟨htype, hmethod, hitems, hasked, range, hexpires, ?_, ?_⟩
      · rw [hafter, if_pos rfl]
        exact Cache.Range.storesOne_of_nodup (h.allocationsSound.distinct _) range
      · rw [hafter, if_neg (by simp)]
  · intro e he hkind
    have hcacheable : e.isCacheable = false := by
      rcases hkind with hkind | hkind | hkind <;> rw [QueryError.isCacheable, hkind] <;> rfl
    exact ⟨sameAllocations_of_error he, sameOutcome_of_not_cacheable he hcacheable⟩
  · intro type htype hscope
    simp only [plan, execute_unserved htype hscope]
    exact ⟨rfl, _, rfl, rfl⟩

/-- An allocation that is reported a second time takes the place of the first. -/
theorem execute_frame_replaced :
    let world := (Client.ofAllocation { startAddress := "1.1.1.0", endAddress := "1.1.1.255" }).world
    let s := after {} world [.execute ⟨"rdap-ip-network", .search, "1.1.1.1", "global"⟩ false, .advance 1000] {}
    let q : Query := ⟨"rdap-ip-network", .search, "8.8.8.8", "global"⟩
    let s' := ((execute {} q false).run world s).2
    Reachable {} world s ∧ ¬ SameAllocations s s' ∧
      ∃ range : Cache.Range Rdap.IpNetwork, range.expiresAt = 1801000 ∧
        range.StoresOne (s.ranges.unexpired s.now range.network.isV4) (s'.ranges.unexpired s.now range.network.isV4) ∧
        s'.ranges.unexpired s.now (!range.network.isV4) = s.ranges.unexpired s.now (!range.network.isV4) := by
  intro world s q s'
  have hs : Reachable {} world s := (Reachable.fresh 0).after _
  have hbefore : (s.ranges.unexpired s.now true).map Cache.Range.expiresAt = [1800000] := by decide +kernel
  have hafter : (s'.ranges.unexpired s.now true).map Cache.Range.expiresAt = [1801000] := by decide +kernel
  have hchanged : ¬ SameAllocations s s' := by
    intro hsame
    rw [hsame s.now (Nat.le_refl _), hbefore] at hafter
    cases hafter
  obtain ⟨-, hallocations, -⟩ := execute_frame hs q false
  obtain ⟨-, -, -, -, range, hexpires, hstored, hother⟩ := hallocations.resolve_left hchanged
  exact ⟨hs, hchanged, range, hexpires.trans (by decide +kernel), hstored, hother⟩

end AssetGraph.Resolve

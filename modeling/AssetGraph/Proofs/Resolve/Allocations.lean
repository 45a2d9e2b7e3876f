import AssetGraph.Proofs.Resolve.Stores

/-!
# Which allocations are remembered

In every history a network has at most one unexpired allocation, and none is remembered for longer than a lifetime. One
that is remembered stays, or is followed by a newer one for its network, until its time is up.
-/
namespace AssetGraph.Resolve

variable {c : Config} {world : World} {q : Query} {s : State} {n : Network} {deadline : Nat} {ignoreCache : Bool}

/-- What the unexpired allocations are like in every history: one for a network, and none for longer than a lifetime. -/
structure AllocationsSound (c : Config) (s : State) : Prop where
  distinct : ∀ isV4, ((s.ranges.unexpired s.now isV4).map Cache.Range.network).Nodup
  bounded : ∀ isV4, ∀ range ∈ s.ranges.unexpired s.now isV4, range.expiresAt ≤ s.now + lifetime c .ipNetwork

namespace AllocationsSound

theorem advance (h : AllocationsSound c s) (milliseconds : Nat) :
    AllocationsSound c { s with now := s.now + milliseconds } where
  distinct isV4 := by
    rw [Cache.Ranges.unexpired_of_le (Nat.le_add_right s.now milliseconds)]
    exact (h.distinct isV4).sublist (List.filter_sublist.map _)
  bounded isV4 range hrange := by
    rw [Cache.Ranges.unexpired_of_le (Nat.le_add_right s.now milliseconds)] at hrange
    have hbound := h.bounded isV4 range (List.mem_filter.mp hrange).1
    change range.expiresAt ≤ s.now + milliseconds + _
    omega

/-- An execution leaves the allocations alone, or remembers one. Where allocations have no lifetime, remembering one
changes nothing. -/
theorem execute_cases (h : AllocationsSound c s) (world : World) (q : Query) (ignoreCache : Bool) :
    SameAllocations s ((execute c q ignoreCache).run world s).2 ∨
      ∃ n, Event.remembered n ∈ (execute c q ignoreCache).events world s ∧ 0 < lifetime c .ipNetwork := by
  by_cases hstore : ∃ n, Event.remembered n ∈ (execute c q ignoreCache).events world s
  · obtain ⟨n, hn⟩ := hstore
    rcases Nat.eq_zero_or_pos (lifetime c .ipNetwork) with hzero | hpos
    · left
      intro moment hmoment isV4
      have hbefore : s.ranges.unexpired s.now isV4 = [] := by
        rw [List.eq_nil_iff_forall_not_mem]
        intro range hrange
        have hbound := h.bounded isV4 range hrange
        have hlive := (Cache.Ranges.mem_unexpired.mp hrange).2
        omega
      have hafter : ((execute c q ignoreCache).run world s).2.ranges.unexpired s.now isV4 = [] := by
        rw [List.eq_nil_iff_forall_not_mem]
        intro range hrange
        obtain ⟨hmem, hlive⟩ := Cache.Ranges.mem_unexpired.mp hrange
        rcases expiresAt_of_remembered hn hmem with hold | hnew
        · have hstill := Cache.Ranges.mem_unexpired.mpr ⟨hold, hlive⟩
          rw [hbefore] at hstill
          cases hstill
        · omega
      rw [Cache.Ranges.unexpired_of_le hmoment, Cache.Ranges.unexpired_of_le hmoment, hbefore, hafter]
    · exact .inr ⟨n, hn, hpos⟩
  · exact .inl (Plan.sameAllocations_run _ s fun n hn => hstore ⟨n, hn⟩)

theorem execute (h : AllocationsSound c s) (world : World) (q : Query) (ignoreCache : Bool) :
    AllocationsSound c ((execute c q ignoreCache).run world s).2 := by
  have hnow : ((Resolve.execute c q ignoreCache).run world s).2.now = s.now := Plan.now_run _ _
  rcases h.execute_cases world q ignoreCache with hsame | ⟨n, hn, hpos⟩
  · constructor <;> intro isV4 <;> rw [hnow, hsame s.now (Nat.le_refl _)]
    · exact h.distinct isV4
    · exact h.bounded isV4
  · obtain ⟨range, rfl, hexpires, hafter⟩ := unexpired_of_remembered hn hpos
    constructor <;> intro isV4 <;> rw [hnow, hafter]
    · split
      · exact Cache.Range.nodup_replace (h.distinct isV4) range
      · exact h.distinct isV4
    · intro r hr
      split at hr
      · rcases List.mem_append.mp hr with hold | hnew
        · exact h.bounded isV4 r (List.mem_filter.mp hold).1
        · rw [List.mem_singleton.mp hnew]
          exact Nat.le_of_eq hexpires
      · exact h.bounded isV4 r hr

end AllocationsSound

theorem Reachable.allocationsSound (h : Reachable c world s) : AllocationsSound c s := by
  induction h with
  | fresh now =>
    refine ⟨fun isV4 => ?_, fun isV4 range hrange => ?_⟩
    · cases isV4 <;> exact List.nodup_nil
    · cases isV4 <;> cases hrange
  | step _ e ih =>
    cases e with
    | execute q ignoreCache => exact ih.execute world q ignoreCache
    | advance milliseconds => exact ih.advance milliseconds

def RemembersUntil (n : Network) (deadline : Nat) (s : State) : Prop :=
  ∃ range ∈ s.ranges.unexpired s.now n.isV4, range.network = n ∧ deadline ≤ range.expiresAt

namespace RemembersUntil

theorem of_remembered (h : Event.remembered n ∈ (Resolve.execute c q ignoreCache).events world s)
    (hpos : 0 < lifetime c .ipNetwork) :
    RemembersUntil n (s.now + lifetime c .ipNetwork) ((Resolve.execute c q ignoreCache).run world s).2 := by
  obtain ⟨range, rfl, hexpires, hafter⟩ := unexpired_of_remembered h hpos
  refine ⟨range, ?_, rfl, Nat.le_of_eq hexpires.symm⟩
  rw [Plan.now_run, hafter, if_pos rfl]
  exact List.mem_append_right _ List.mem_cons_self

theorem execute (h : RemembersUntil n deadline s) (hpos : 0 < lifetime c .ipNetwork)
    (hdeadline : deadline ≤ s.now + lifetime c .ipNetwork) (world : World) (q : Query) (ignoreCache : Bool) :
    RemembersUntil n deadline ((execute c q ignoreCache).run world s).2 := by
  obtain ⟨range, hrange, hnetwork, hstays⟩ := h
  have hnow : ((Resolve.execute c q ignoreCache).run world s).2.now = s.now := Plan.now_run _ _
  rw [RemembersUntil, hnow]
  by_cases hstore : ∃ m, Event.remembered m ∈ (Resolve.execute c q ignoreCache).events world s
  · obtain ⟨m, hm⟩ := hstore
    obtain ⟨newer, rfl, hexpires, hafter⟩ := unexpired_of_remembered hm hpos
    rw [hafter]
    by_cases hsame : n = newer.network
    · rw [if_pos (by rw [hsame])]
      exact ⟨newer, List.mem_append_right _ List.mem_cons_self, hsame.symm, hexpires ▸ hdeadline⟩
    · have hother : decide (range.network ≠ newer.network) = true := decide_eq_true (hnetwork ▸ hsame)
      refine ⟨range, ?_, hnetwork, hstays⟩
      split
      · exact List.mem_append_left _ (List.mem_filter.mpr ⟨hrange, hother⟩)
      · exact hrange
  · rw [Plan.sameAllocations_run _ s (fun m hm => hstore ⟨m, hm⟩) s.now (Nat.le_refl _)]
    exact ⟨range, hrange, hnetwork, hstays⟩

theorem advance (h : RemembersUntil n deadline s) {milliseconds : Nat} (hnow : s.now + milliseconds < deadline) :
    RemembersUntil n deadline { s with now := s.now + milliseconds } := by
  obtain ⟨range, hrange, hnetwork, hstays⟩ := h
  have hmem := (Cache.Ranges.mem_unexpired.mp hrange).1
  exact ⟨range, Cache.Ranges.mem_unexpired.mpr ⟨hmem, Nat.lt_of_lt_of_le hnow hstays⟩, hnetwork, hstays⟩

/-- Whatever is executed, a remembered allocation or a newer one for its network is there until the deadline. -/
theorem after (h : RemembersUntil n deadline s) (hdeadline : deadline ≤ s.now + lifetime c .ipNetwork)
    (steps : List Step) (hnow : (after c world steps s).now < deadline) :
    RemembersUntil n deadline (after c world steps s) := by
  induction steps generalizing s with
  | nil => exact h
  | cons step steps ih =>
    have hle : s.now ≤ (step.apply c world s).now := step.now_le s
    have hlive : (step.apply c world s).now < deadline := Nat.lt_of_le_of_lt (now_le_after steps _) hnow
    refine ih ?_ (Nat.le_trans hdeadline (Nat.add_le_add_right hle _)) hnow
    cases step with
    | execute q ignoreCache => exact h.execute (by omega) hdeadline world q ignoreCache
    | advance milliseconds => exact h.advance hlive

end RemembersUntil
end AssetGraph.Resolve

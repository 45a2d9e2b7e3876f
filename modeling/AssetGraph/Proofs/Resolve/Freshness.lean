import AssetGraph.Proofs.Config.Check
import AssetGraph.Proofs.Resolve.Origin

/-!
# How old answers are

Every answer is younger than the lifetime of its type, with one exception. An outcome taken from a remembered allocation
is kept for a whole lifetime of its own, so that it is given again after the allocation has expired. `fresh_iff` says that
nothing else is ever too old, and exactly when this is.
-/
namespace AssetGraph.Resolve

open IpNetworks

variable {c : Config} {world : World} {t : Task} {q : Query} {s s' : State} {x : Traced} {origins : Origins}
  {r : Resolution (List Item)} {missing : Option Cause} {ignoreCache : Bool} {used : List Nat}

/-- What a resolution carried out at `now` draws on: responses received at that moment, or in a search for a network one
response received before, whose lifetime is not over. -/
def DrawnAt (c : Config) (t : Task) (now : Nat) (used : List Nat) : Prop :=
  (∀ moment ∈ used, moment = now) ∨
    t.type = .ipNetwork ∧ t.method = .search ∧
      ∃ received, used = [received] ∧ received < now ∧ now < received + lifetime c t.type

/-- Every remembered allocation comes from one response, received a lifetime before it expires. -/
def AllocationsDated (c : Config) (s : State) (origins : Origins) : Prop :=
  ∀ isV4, ∀ range ∈ s.ranges.family isV4, range.network.isV4 = isV4 ∧
    ∃ received, received ≤ s.now ∧ origins.allocations range.network = [received] ∧
      range.expiresAt = received + lifetime c .ipNetwork

def OutcomesDated (c : Config) (s : State) (origins : Origins) : Prop :=
  ∀ key e, s.results.find? key = some e →
    ∃ t r missing kept, Task.key t = key ∧ t.ttl = lifetime c t.type ∧ t.service c = .resolve r missing ∧
      e.expiresAt = kept + lifetime c t.type ∧ DrawnAt c t kept (origins.outcomes key)

structure Dated (c : Config) (x : Traced) : Prop where
  outcomes : OutcomesDated c x.state x.origins
  allocations : AllocationsDated c x.state x.origins

theorem AllocationsDated.search (h : AllocationsDated c s origins) (target : Target) :
    AllocationsDated c (target.afterSearch s) origins := by
  intro isV4 range hrange
  exact h isV4 range (Cache.Ranges.mem_of_mem_search hrange)

/-- The origin of an older allocation is not written over, as one for the same network would have been replaced. -/
theorem AllocationsDated.store (h : AllocationsDated c s origins) (covering : Network) (n : Rdap.IpNetwork) :
    AllocationsDated c { s with ranges := s.ranges.store s.now covering n (lifetime c .ipNetwork) }
      { origins with allocations := Function.update origins.allocations covering [s.now] } := by
  intro isV4 range hrange
  rcases Cache.Ranges.mem_of_mem_store hrange with ⟨hold, hother⟩ | ⟨hfamily, rfl⟩
  · obtain ⟨hisV4, received, hle, hallocation, hexpires⟩ := h isV4 range hold
    have hne : range.network ≠ covering := by
      intro heq
      exact hother (by rw [← hisV4, heq]) heq
    exact ⟨hisV4, received, hle, (Function.update_of_ne hne ..).trans hallocation, hexpires⟩
  · exact ⟨hfamily.symm, s.now, Nat.le_refl _, Function.update_self .., rfl⟩

/-- A search draws on one response, received now or behind the remembered allocation that it finds. -/
theorem AllocationsDated.resolve (h : AllocationsDated c s origins) (htype : t.type = .ipNetwork)
    (hmethod : t.method = .search) (ht : t.ttl = lifetime c t.type) :
    let l := Ledger.noteAll s.now ((resolve t).run.events world s) ⟨origins, []⟩
    l.origins.outcomes = origins.outcomes ∧ DrawnAt c t s.now l.used ∧
      AllocationsDated c ((resolve t).run.run world s).2 l.origins := by
  rw [htype] at ht
  rcases resolve_cases world t s with ⟨-, hrun, hevents⟩ | ⟨target, range, -, hr, hrun, hevents⟩ |
    ⟨target, -, -, hrun, hevents⟩ | ⟨target, answer, -, -, -, hrun, hevents⟩
  · rw [hrun, hevents]
    exact ⟨rfl, .inl nofun, h⟩
  · rw [hrun, hevents]
    refine ⟨rfl, ?_, h.search target⟩
    obtain ⟨hmem, hlive, -⟩ := Cache.Ranges.winner?_spec hr
    obtain ⟨-, received, hle, hallocation, hexpires⟩ := h _ range hmem
    simp only [Ledger.noteAll, List.foldl, Ledger.note, hallocation, List.nil_append]
    rcases Nat.eq_or_lt_of_le hle with heq | hlt
    · exact .inl fun moment hmoment => by rw [List.mem_singleton.mp hmoment, heq]
    · refine .inr ⟨htype, hmethod, received, rfl, hlt, ?_⟩
      rw [htype]
      omega
  · rw [hrun, hevents]
    exact ⟨rfl, .inl (by simp [Ledger.noteAll, Ledger.note]), h.search target⟩
  · rw [hrun, hevents]
    simp only [afterAnswer]
    cases allocationOf t.text answer with
    | error e => exact ⟨rfl, .inl (by simp [Ledger.noteAll, Ledger.note]), h.search target⟩
    | ok found =>
      rw [ht]
      exact ⟨rfl, .inl (by simp [Ledger.noteAll, Ledger.note]), (h.search target).store found.2 found.1⟩

theorem AllocationsDated.resolution (h : AllocationsDated c s origins) (hservice : t.service c = .resolve r missing)
    (ht : t.ttl = lifetime c t.type) :
    let l := Ledger.noteAll s.now (r.run.events world s) ⟨origins, []⟩
    l.origins.outcomes = origins.outcomes ∧ DrawnAt c t s.now l.used ∧
      AllocationsDated c (r.run.run world s).2 l.origins := by
  rcases Task.asksOnly_of_service hservice with hr | ⟨htype, hmethod, rfl, -⟩
  · have hasked : ∀ e ∈ r.run.events world s, ∃ r, e = .asked r := fun e he => hr.mem_events he
    obtain ⟨horigins, hused⟩ :
        (Ledger.noteAll s.now (r.run.events world s) ⟨origins, []⟩).origins = origins ∧ _ :=
      Ledger.noteAll_asked hasked
    refine ⟨by rw [horigins], .inl fun moment hmoment => ?_, ?_⟩
    · exact (hused moment hmoment).resolve_left List.not_mem_nil
    · rw [horigins, hr.run_snd]
      exact h
  · exact h.resolve htype hmethod ht

theorem OutcomesDated.congr {origins' : Origins} (h : OutcomesDated c s origins) (hresults : s'.results = s.results)
    (houtcomes : origins'.outcomes = origins.outcomes) : OutcomesDated c s' origins' := by
  intro key e he
  rw [houtcomes]
  exact h key e (hresults ▸ he)

theorem OutcomesDated.afterLookup (h : OutcomesDated c s origins) (t : Task) :
    OutcomesDated c (t.afterLookup s) origins :=
  fun key e he => h key e (Cache.Results.find?_of_find?_lookup he)

theorem OutcomesDated.afterKeeping (h : OutcomesDated c s origins) (hservice : t.service c = .resolve r missing)
    (ht : t.ttl = lifetime c t.type) {outcome : Outcome} (ho : outcome.isCacheable) (hused : DrawnAt c t s.now used) :
    OutcomesDated c (t.afterKeeping outcome s)
      { origins with outcomes := Function.update origins.outcomes t.key used } := by
  intro key e he
  simp only [Task.afterKeeping, Cache.Results.find?_settle, ho, and_true] at he
  split at he
  · rename_i hkey
    cases he
    refine ⟨t, r, missing, s.now, hkey.symm, ht, hservice, by rw [ht], ?_⟩
    simp only [hkey, Function.update_self]
    exact hused
  · rename_i hkey
    simp only [Function.update_of_ne hkey]
    exact h key e he

theorem Dated.resolution (h : Dated c ⟨s, origins⟩) (hservice : t.service c = .resolve r missing)
    (ht : t.ttl = lifetime c t.type) :
    let l := Ledger.noteAll s.now (r.run.events world (t.afterLookup s)) ⟨origins, []⟩
    l.origins.outcomes = origins.outcomes ∧ DrawnAt c t s.now l.used ∧
      AllocationsDated c (r.run.run world (t.afterLookup s)).2 l.origins := by
  have hallocations : AllocationsDated c (t.afterLookup s) origins := h.allocations
  exact hallocations.resolution hservice ht

theorem Dated.serve (h : Dated c ⟨s, origins⟩) (ht : t.ttl = lifetime c t.type) :
    Dated c ⟨((t.serve (t.service c)).run world s).2,
      (Ledger.noteAll s.now ((t.serve (t.service c)).events world s) ⟨origins, []⟩).origins⟩ := by
  rcases Task.serve_cases c world t s with ⟨o, -, hserve, hevents⟩ | ⟨m, -, hserve, hevents⟩ |
    ⟨r, missing, o, -, -, hserve, hevents⟩ | ⟨r, missing, s', hservice, -, hrun, hresults, hserve, hevents⟩ |
    ⟨r, missing, result, s', hservice, -, hrun, hresults, hnow, hserve, hevents⟩
  · rw [hserve, hevents]
    exact h
  · rw [hserve, hevents]
    cases (t.recalled? s).isSome <;> exact ⟨h.outcomes.afterLookup t, h.allocations⟩
  · rw [hserve, hevents]
    exact ⟨h.outcomes.afterLookup t, h.allocations⟩
  · obtain ⟨houtcomes, -, hranges⟩ := h.resolution hservice ht
    rw [hrun] at hranges
    rw [hserve, hevents]
    exact ⟨(h.outcomes.afterLookup t).congr hresults houtcomes, hranges⟩
  · obtain ⟨houtcomes, hdrawn, hranges⟩ := h.resolution hservice ht
    have hkept := (h.outcomes.afterLookup t).congr hresults houtcomes
    rw [hrun] at hranges
    rw [hserve, hevents, Ledger.noteAll_append]
    by_cases ho : (t.outcome result).isCacheable
    · have hthen : DrawnAt c t s'.now
          (Ledger.noteAll s.now (r.run.events world (t.afterLookup s)) ⟨origins, []⟩).used := by
        rw [hnow]
        exact hdrawn
      rw [if_pos ho]
      exact ⟨hkept.afterKeeping hservice ht ho hthen, hranges⟩
    · rw [if_neg ho]
      refine ⟨hkept.congr ?_ rfl, hranges⟩
      simp only [Task.afterKeeping, Cache.Results.settle, ho]
      rfl

theorem Dated.after (c : Config) (world : World) (start : Nat) (steps : List Step) :
    Dated c (Traced.after c world start steps) := by
  apply Traced.after_induction
  · refine ⟨fun key e he => ?_, fun isV4 range hrange => ?_⟩
    · cases he
    · cases isV4 <;> cases hrange
  · intro x e hx
    cases e with
    | advance milliseconds =>
      refine ⟨hx.outcomes, fun isV4 range hrange => ?_⟩
      obtain ⟨hisV4, received, hle, hallocation, hexpires⟩ := hx.allocations isV4 range hrange
      exact ⟨hisV4, received, Nat.le_trans hle (Nat.le_add_right _ _), hallocation, hexpires⟩
    | execute q ignoreCache =>
      cases htype : ItemType.ofName? q.type with
      | none =>
        obtain ⟨o, ho⟩ := execute_unknown c htype
        simp only [Traced.step, Step.apply, Traced.ledger, ho]
        exact hx
      | some type =>
        simp only [Traced.step, Step.apply, Traced.ledger, execute_known c htype]
        exact Dated.serve hx rfl

/-- An execution is answered with a kept outcome and uses what that was drawn from, or draws on its own. -/
theorem Dated.used_serve (h : Dated c x) (hreach : Reachable c world x.state) (ht : t.ttl = lifetime c t.type) :
    let events := (t.serve (t.service c)).events world x.state
    let used := (Ledger.noteAll x.state.now events ⟨x.origins, []⟩).used
    (∃ o, t.recalled? x.state = some o ∧ events = [.lookedUp t.key true] ∧ used = x.origins.outcomes t.key) ∨
      Event.lookedUp t.key true ∉ events ∧ DrawnAt c t x.state.now used := by
  rcases Task.serve_cases c world t x.state with ⟨o, -, -, hevents⟩ | ⟨m, hservice, -, hevents⟩ |
    ⟨r, missing, o, -, hrecalled, -, hevents⟩ | ⟨r, missing, s', hservice, -, -, -, -, hevents⟩ |
    ⟨r, missing, result, s', hservice, -, -, -, -, -, hevents⟩
  · rw [hevents]
    exact .inr ⟨List.not_mem_nil, .inl nofun⟩
  · rw [hevents, hreach.recalled?_of_replay ht hservice]
    exact .inr ⟨by simp, .inl nofun⟩
  · rw [hevents]
    exact .inl ⟨o, hrecalled, rfl, rfl⟩
  · have hnone : Event.lookedUp t.key true ∉ r.run.events world (t.afterLookup x.state) :=
      Task.lookedUp_notMem_events_of_service hservice _ _ _
    rw [hevents]
    exact .inr ⟨by simp [hnone], (h.resolution hservice ht).2.1⟩
  · have hnone : Event.lookedUp t.key true ∉ r.run.events world (t.afterLookup x.state) :=
      Task.lookedUp_notMem_events_of_service hservice _ _ _
    rw [hevents]
    by_cases ho : (t.outcome result).isCacheable
    · rw [if_pos ho]
      simp only [Ledger.noteAll_append]
      exact .inr ⟨by simp [hnone], (h.resolution hservice ht).2.1⟩
    · rw [if_neg ho, List.append_nil]
      exact .inr ⟨by simp [hnone], (h.resolution hservice ht).2.1⟩

theorem lifetime_pos (hc : c.check = .ok ()) {type : ItemType} (hip : type ≠ .ip) : 0 < lifetime c type := by
  have hlifetimes := (Config.check_eq_ok_iff.mp hc).1
  simp only [Config.lifetimes, List.forall_mem_cons, Config.InRange, Config.leastTtl] at hlifetimes
  obtain ⟨⟨hrdap, -⟩, ⟨hdns, -⟩, ⟨hhttp, -⟩, -⟩ := hlifetimes
  cases type <;> simp only [lifetime, Config.milliseconds] <;> first | omega | exact absurd rfl hip

/-- In every history of a checked configuration, all that an execution uses was received less than a lifetime ago, unless
a search for a network is answered with an outcome that was kept at some moment, taken from an allocation received before
and still remembered then, and the lifetime of that allocation is over. -/
theorem fresh_iff (hc : c.check = .ok ()) {type : ItemType} (htype : ItemType.ofName? q.type = some type)
    (hip : type ≠ .ip) (world : World) (start : Nat) (steps : List Step) (ignoreCache : Bool) :
    let x := Traced.after c world start steps
    let key := (Task.ofQuery c type q ignoreCache).key
    (∀ moment ∈ x.sources c world q ignoreCache, x.state.now < moment + lifetime c type) ↔
      ¬ ∃ received kept, type = .ipNetwork ∧ q.method = .search ∧
        Event.lookedUp key true ∈ (execute c q ignoreCache).events world x.state ∧
        (x.state.results.find? key).map Cache.Entry.expiresAt = some (kept + lifetime c type) ∧
        x.origins.outcomes key = [received] ∧ received < kept ∧ kept < received + lifetime c type ∧
        received + lifetime c type ≤ x.state.now := by
  intro x key
  have hdated : Dated c x := Dated.after c world start steps
  have hreach : Reachable c world x.state := by
    rw [Traced.state_after]
    exact (Reachable.fresh start).after steps
  have hpos := lifetime_pos hc hip
  simp only [Traced.sources, Traced.ledger, execute_known c htype]
  have ht : (Task.ofQuery c type q ignoreCache).ttl = lifetime c (Task.ofQuery c type q ignoreCache).type := rfl
  rcases hdated.used_serve hreach ht with ⟨o, ho, hevents, hused⟩ | ⟨hnone, hdrawn⟩
  · obtain ⟨-, e, he, hlive, -⟩ := Cache.Results.lookup_eq_some_iff.mp ho
    obtain ⟨u, r, missing, kept, hkey, hu, hservice, hexpires, hdrawn⟩ := hdated.outcomes key e he
    obtain ⟨htype', hmethod⟩ : u.type = type ∧ u.method = q.method := by
      simp only [key, Task.key, Task.ofQuery, Identity.mk.injEq] at hkey
      exact ⟨ItemType.name_inj hkey.2.2.2.1, hkey.2.1⟩
    rw [htype'] at hexpires
    rw [hused, hevents, he]
    rcases hdrawn with hall | ⟨hnetwork, hsearch, received, hreceived, hbefore, hduring⟩
    · constructor
      · rintro - ⟨received, kept', -, -, -, hexpires', hreceived, hbefore, -, -⟩
        have hsame := hall received (by rw [hreceived]; exact List.mem_singleton_self _)
        have hkept : e.expiresAt = kept' + lifetime c type := Option.some.inj hexpires'
        omega
      · intro _ moment hmoment
        rw [hall moment hmoment]
        omega
    · rw [htype'] at hnetwork hduring
      rw [hmethod] at hsearch
      constructor
      · rintro hfresh ⟨received', kept', -, -, -, -, hreceived', -, -, hover⟩
        have hlate := hfresh received' (by rw [hreceived']; exact List.mem_singleton_self _)
        omega
      · intro hnot moment hmoment
        rw [hreceived, List.mem_singleton] at hmoment
        subst hmoment
        by_contra hover
        exact hnot ⟨moment, kept, hnetwork, hsearch, List.mem_singleton_self _, congrArg some hexpires, hreceived,
          hbefore, hduring, by omega⟩
  · constructor
    · rintro - ⟨received, kept, -, -, hmem, -⟩
      exact hnone hmem
    · intro _ moment hmoment
      rcases hdrawn with hall | ⟨-, -, received, hreceived, -, hduring⟩
      · rw [hall moment hmoment]
        omega
      · rw [hreceived, List.mem_singleton] at hmoment
        rw [hmoment]
        exact hduring

/-- In the last millisecond of an allocation a search that it answers is still fresh. -/
theorem fresh_from_allocation :
    let world := (Client.ofAllocation { startAddress := "1.1.1.0", endAddress := "1.1.1.255" }).world
    let first : Query := ⟨"rdap-ip-network", .search, "1.1.1.1", "global"⟩
    let q : Query := ⟨"rdap-ip-network", .search, "1.1.1.2", "global"⟩
    let x := Traced.after {} world 0 [.execute first false, .advance 1799999]
    ({} : Config).check = .ok () ∧ x.sources {} world q false = [0] ∧
      ∀ moment ∈ x.sources {} world q false, x.state.now < moment + lifetime {} .ipNetwork := by
  intro world first q x
  have hcheck : ({} : Config).check = .ok () := by decide +kernel
  have hsources : x.sources {} world q false = [0] := by decide +kernel
  have hevents : Event.lookedUp (Task.ofQuery {} .ipNetwork q false).key true ∉
      (execute {} q false).events world x.state := by
    decide +kernel
  refine ⟨hcheck, hsources, (fresh_iff hcheck (by decide) (by decide) world 0 _ false).mpr ?_⟩
  rintro ⟨received, kept, -, -, hmem, -⟩
  exact hevents hmem

/-- One millisecond later the outcome of that search is given again, from a response as old as its lifetime. -/
theorem stale_from_allocation :
    let world := (Client.ofAllocation { startAddress := "1.1.1.0", endAddress := "1.1.1.255" }).world
    let first : Query := ⟨"rdap-ip-network", .search, "1.1.1.1", "global"⟩
    let q : Query := ⟨"rdap-ip-network", .search, "1.1.1.2", "global"⟩
    let x := Traced.after {} world 0 [.execute first false, .advance 1799999, .execute q false, .advance 1]
    ({} : Config).check = .ok () ∧ ((execute {} q false).run world x.state).1.map Except.isOk = some true ∧
      ¬ ∀ moment ∈ x.sources {} world q false, x.state.now < moment + lifetime {} .ipNetwork := by
  decide +kernel

end AssetGraph.Resolve

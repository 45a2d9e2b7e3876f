import AssetGraph.Proofs.Cache.Unexpired
import AssetGraph.Proofs.Resolve.History

/-!
# What an execution stores

Of what has not expired, a plan changes only what its effects say it keeps or remembers. An execution keeps nothing but
an outcome that may be kept, under the identity of its query, and remembers nothing but one allocation that the registry
reported to a search for a network that succeeds.
-/
namespace AssetGraph.Resolve

open IpNetworks

variable {c : Config} {world : World} {t : Task} {q : Query} {s s' s'' : State} {r : Resolution (List Item)}
  {missing : Option Cause} {ignoreCache isV4 : Bool} {key : Identity} {n : Network} {o : Outcome} {e : Event}

/-- Whether an effect changes a cache for later executions. -/
def Event.isStore : Event → Bool
  | remembered _ => true
  | kept _ => true
  | _ => false

/-- The same unexpired allocations, now and at any later moment. -/
def SameAllocations (s s' : State) : Prop :=
  ∀ moment, s.now ≤ moment → ∀ isV4, s'.ranges.unexpired moment isV4 = s.ranges.unexpired moment isV4

def SameOutcome (key : Identity) (s s' : State) : Prop :=
  ∀ moment, s.now ≤ moment → s'.results.unexpired? moment key = s.results.unexpired? moment key

namespace Plan

variable {α : Type}

theorem sameAllocations_run (p : Plan α) (s : State) (h : ∀ n, .remembered n ∉ p.events world s) :
    SameAllocations s (p.run world s).2 := by
  induction p generalizing s with
  | done a => exact fun _ _ _ => rfl
  | lookUp key ignoreCache next ih =>
    simp only [events, List.mem_cons, not_or] at h
    exact ih _ { s with results := _ } fun n => (h n).2
  | findAddress a next ih =>
    simp only [events, List.mem_cons, not_or] at h
    intro moment hmoment isV4
    exact (ih _ { s with ranges := _ } (fun n => (h n).2) moment hmoment isV4).trans
      (Cache.Ranges.unexpired_searchAddress a hmoment)
  | findNetwork m next ih =>
    simp only [events, List.mem_cons, not_or] at h
    intro moment hmoment isV4
    exact (ih _ { s with ranges := _ } (fun n => (h n).2) moment hmoment isV4).trans
      (Cache.Ranges.unexpired_searchNetwork m hmoment)
  | ask request next ih =>
    simp only [events, List.mem_cons, not_or] at h
    simp only [run]
    cases hw : world s.requests request with
    | none => exact fun _ _ _ => rfl
    | some answer =>
      simp only [hw] at h
      exact ih answer { s with requests := _ } fun n => (h n).2
  | remember m allocation ttl next ih => exact absurd List.mem_cons_self (h m)
  | keep key outcome ttl next ih =>
    simp only [events, List.mem_append, not_or] at h
    exact ih { s with results := _ } fun n => (h n).2

theorem sameOutcome_run (p : Plan α) (s : State) (h : .kept key ∉ p.events world s) :
    SameOutcome key s (p.run world s).2 := by
  induction p generalizing s with
  | done a => exact fun _ _ => rfl
  | lookUp other ignoreCache next ih =>
    simp only [events, List.mem_cons, not_or] at h
    intro moment hmoment
    exact (ih _ { s with results := _ } h.2 moment hmoment).trans (Cache.Results.unexpired?_lookup hmoment)
  | findAddress a next ih =>
    simp only [events, List.mem_cons, not_or] at h
    exact ih _ { s with ranges := _ } h.2
  | findNetwork m next ih =>
    simp only [events, List.mem_cons, not_or] at h
    exact ih _ { s with ranges := _ } h.2
  | ask request next ih =>
    simp only [events, List.mem_cons, not_or] at h
    simp only [run]
    cases hw : world s.requests request with
    | none => exact fun _ _ => rfl
    | some answer =>
      simp only [hw] at h
      exact ih answer { s with requests := _ } h.2
  | remember m allocation ttl next ih =>
    simp only [events, List.mem_cons, not_or] at h
    exact ih { s with ranges := _ } h.2
  | keep other outcome ttl next ih =>
    simp only [events, List.mem_append, not_or] at h
    intro moment hmoment
    refine (ih { s with results := _ } h.2 moment hmoment).trans (Cache.Results.unexpired?_settle ttl ?_)
    rintro ⟨rfl, hcacheable⟩
    simp [hcacheable] at h

end Plan

namespace Task

theorem kind_of_service {m : Cause} (h : t.service c = .resolve r (some m)) : m.kind = .notFound := by
  have hserved := h ▸ servedBy c t
  cases hserved <;> rfl

theorem isCacheable_deliver (h : t.service c = .resolve r missing) (ho : o.isCacheable) :
    (t.deliver missing o).isCacheable := by
  cases missing with
  | none => exact ho
  | some m =>
    cases o with
    | error e => exact ho
    | ok items =>
      cases items with
      | nil =>
        have hkind := kind_of_service h
        simp only [deliver, Outcome.single, Outcome.ofItem, failure, Cause.within, Cause.error, QueryError.inContext,
          Outcome.isCacheable, QueryError.isCacheable, hkind, ErrorKind.isCacheable]
      | cons item rest => rfl

/-- An effect of serving a task is its lookup, or comes from its resolution, or is the keeping of what it comes to. -/
theorem mem_events_serve (h : e ∈ (t.serve (t.service c)).events world s) :
    (∃ found, e = .lookedUp t.key found) ∨
      ∃ r missing, t.service c = .resolve r missing ∧ t.recalled? s = none ∧
        (e ∈ r.run.events world (t.afterLookup s) ∨
          e = .kept t.key ∧ ∃ o, ((t.serve (t.service c)).run world s).1 = some o ∧ o.isCacheable) := by
  rcases serve_cases c world t s with ⟨o, -, -, hevents⟩ | ⟨m, -, -, hevents⟩ | ⟨r, missing, o, -, -, -, hevents⟩ |
    ⟨r, missing, s', hservice, hrecalled, -, -, -, hevents⟩ |
    ⟨r, missing, result, s', hservice, hrecalled, -, -, -, hserve, hevents⟩
  · rw [hevents] at h
    cases h
  · rw [hevents] at h
    exact .inl ⟨_, List.mem_singleton.mp h⟩
  · rw [hevents] at h
    exact .inl ⟨_, List.mem_singleton.mp h⟩
  · rw [hevents, List.mem_cons] at h
    exact h.imp (fun hlookup => ⟨_, hlookup⟩) fun hmem => ⟨r, missing, hservice, hrecalled, .inl hmem⟩
  · rw [hevents, List.cons_append, List.mem_cons, List.mem_append] at h
    rcases h with hlookup | hmem | hkept
    · exact .inl ⟨_, hlookup⟩
    · exact .inr ⟨r, missing, hservice, hrecalled, .inl hmem⟩
    · split at hkept
      · rename_i hcacheable
        refine .inr ⟨r, missing, hservice, hrecalled, .inr ⟨List.mem_singleton.mp hkept, _, by rw [hserve], ?_⟩⟩
        exact isCacheable_deliver hservice hcacheable
      · cases hkept

theorem events_resolution_subset (hservice : t.service c = .resolve r missing) (hrecalled : t.recalled? s = none) :
    r.run.events world (t.afterLookup s) ⊆ (t.serve (t.service c)).events world s := by
  rw [hservice]
  rcases hrun : r.run.run world (t.afterLookup s) with ⟨_ | result, s'⟩
  · rw [events_serve_unanswered hrecalled hrun]
    exact List.subset_cons_self ..
  · rw [events_serve_resolved hrecalled hrun]
    exact fun e he => List.mem_append_left _ (List.mem_cons_of_mem _ he)

/-- A task keeps an outcome under its own identity only, and only one that may be kept. -/
theorem run_serve_of_kept (h : Event.kept key ∈ (t.serve (t.service c)).events world s) :
    key = t.key ∧ ∃ o, ((t.serve (t.service c)).run world s).1 = some o ∧ o.isCacheable := by
  rcases mem_events_serve h with ⟨_, hlookup⟩ | ⟨r, missing, hservice, -, hmem | ⟨hkey, ho⟩⟩
  · cases hlookup
  · rcases mem_events_of_service hservice hmem with ⟨_, hother⟩ | ⟨_, hother⟩ | ⟨_, hother⟩ <;> cases hother
  · exact ⟨Event.kept.inj hkey, ho⟩

theorem find?_of_kept (h : Event.kept key ∈ (t.serve (t.service c)).events world s) :
    ∃ o, o.isCacheable ∧
      ((t.serve (t.service c)).run world s).2.results.find? key = some ⟨o, s.now + t.ttl⟩ := by
  rcases serve_cases c world t s with ⟨o, -, -, hevents⟩ | ⟨m, -, -, hevents⟩ | ⟨r, missing, o, -, -, -, hevents⟩ |
    ⟨r, missing, s', hservice, -, -, -, -, hevents⟩ |
    ⟨r, missing, result, s', hservice, -, -, -, hnow, hserve, hevents⟩
  · rw [hevents] at h
    cases h
  · simp [hevents] at h
  · simp [hevents] at h
  · rw [hevents, List.mem_cons] at h
    rcases mem_events_of_service hservice (h.resolve_left nofun) with ⟨_, hother⟩ | ⟨_, hother⟩ | ⟨_, hother⟩ <;>
      cases hother
  · obtain ⟨rfl, -⟩ := run_serve_of_kept h
    rw [hevents, List.cons_append, List.mem_cons, List.mem_append] at h
    rcases h with hlookup | hmem | hkept
    · cases hlookup
    · rcases mem_events_of_service hservice hmem with ⟨_, hother⟩ | ⟨_, hother⟩ | ⟨_, hother⟩ <;> cases hother
    · split at hkept
      · rename_i hcacheable
        refine ⟨t.outcome result, hcacheable, ?_⟩
        simp only [hserve, afterKeeping, Cache.Results.find?_settle, hcacheable, hnow, and_self, if_true]
      · cases hkept

/-- A task remembers an allocation only when it is a search for a network that the registry answers with it. -/
theorem run_serve_of_remembered (h : Event.remembered n ∈ (t.serve (t.service c)).events world s) :
    t.type = .ipNetwork ∧ t.method = .search ∧
      ∃ (target : Target) (answer : Except Rdap.ClientError Rdap.Response) (allocation : Rdap.IpNetwork),
        world s.requests (.rdap (request t.text)) = some answer ∧ allocationOf t.text answer = .ok (allocation, n) ∧
        Event.asked (.rdap (request t.text)) ∈ (t.serve (t.service c)).events world s ∧
        ((t.serve (t.service c)).run world s).1 = some (.ok [itemOf t allocation]) ∧
        ((t.serve (t.service c)).run world s).2.ranges =
          (target.afterSearch s).ranges.store s.now n allocation t.ttl := by
  rcases mem_events_serve h with ⟨_, hlookup⟩ | ⟨r, missing, hservice, hrecalled, hmem | ⟨hkept, -⟩⟩
  · cases hlookup
  · rcases asksOnly_of_service hservice with hr | ⟨htype, hmethod, rfl, rfl⟩
    · obtain ⟨_, hother⟩ := hr.mem_events hmem
      cases hother
    · obtain ⟨target, answer, allocation, ha, hallocation, hasked, hresult, hranges⟩ := run_of_remembered hmem
      refine ⟨htype, hmethod, target, answer, allocation, ha, hallocation,
        events_resolution_subset hservice hrecalled hasked, ?_⟩
      rcases hrun : (resolve t).run.run world (t.afterLookup s) with ⟨_ | result, s'⟩
      · rw [hrun] at hresult
        cases hresult
      · rw [hrun] at hresult hranges
        cases hresult
        rw [hservice, run_serve_resolved hrecalled hrun]
        exact ⟨rfl, hranges⟩
  · cases hkept

end Task

theorem execute_unserved {type : ItemType} (htype : ItemType.ofName? q.type = some type)
    (hscope : q.scope ≠ globalScope) :
    execute c q ignoreCache =
      .done (.error ((QueryError.unservedScope q.scope).inContext q.scope type.name type.source)) := by
  have hother : type.scopes.contains q.scope = false := by
    simpa [ItemType.scopes, globalScope] using hscope
  simp only [execute, htype, perform, hother]
  rfl

theorem known_of_mem_events (h : e ∈ (execute c q ignoreCache).events world s) :
    ∃ type, ItemType.ofName? q.type = some type := by
  cases htype : ItemType.ofName? q.type with
  | some type => exact ⟨type, rfl⟩
  | none =>
    obtain ⟨o, ho⟩ := execute_unknown c htype
    rw [ho] at h
    cases h

/-- An execution that remembers an allocation is a search for a network that asks and succeeds. -/
theorem execute_of_remembered (h : Event.remembered n ∈ (execute c q ignoreCache).events world s) :
    ItemType.ofName? q.type = some .ipNetwork ∧ q.method = .search ∧
      (∃ items, ((execute c q ignoreCache).run world s).1 = some (.ok items)) ∧
      (∃ request, Event.asked request ∈ (execute c q ignoreCache).events world s) ∧
      ∃ (target : Target) (allocation : Rdap.IpNetwork), ((execute c q ignoreCache).run world s).2.ranges =
        (target.afterSearch s).ranges.store s.now n allocation (lifetime c .ipNetwork) := by
  obtain ⟨type, htype⟩ := known_of_mem_events h
  rw [execute_known c htype] at h ⊢
  obtain ⟨hnetwork, hmethod, target, answer, allocation, -, -, hasked, hresult, hranges⟩ :=
    Task.run_serve_of_remembered h
  have heq : type = .ipNetwork := hnetwork
  subst heq
  exact ⟨htype, hmethod, ⟨_, hresult⟩, ⟨_, hasked⟩, target, allocation, hranges⟩

/-- What is remembered takes the place of what was remembered for its network, for the lifetime of allocations. -/
theorem unexpired_of_remembered (h : Event.remembered n ∈ (execute c q ignoreCache).events world s)
    (hpos : 0 < lifetime c .ipNetwork) :
    ∃ range : Cache.Range Rdap.IpNetwork, range.network = n ∧ range.expiresAt = s.now + lifetime c .ipNetwork ∧
      ∀ other, ((execute c q ignoreCache).run world s).2.ranges.unexpired s.now other =
        if other = n.isV4 then (s.ranges.unexpired s.now other).filter (fun r => r.network ≠ n) ++ [range]
        else s.ranges.unexpired s.now other := by
  obtain ⟨-, -, -, -, target, allocation, hranges⟩ := execute_of_remembered h
  refine ⟨⟨n, allocation, s.now + lifetime c .ipNetwork, (target.afterSearch s).ranges.nextSequence⟩, rfl, rfl, ?_⟩
  intro other
  have hsearched : ∀ b, (target.afterSearch s).ranges.unexpired s.now b = s.ranges.unexpired s.now b := fun b =>
    Cache.Ranges.unexpired_search (Nat.le_refl _)
  rw [hranges, ← hsearched]
  exact Cache.Ranges.unexpired_store hpos

theorem expiresAt_of_remembered (h : Event.remembered n ∈ (execute c q ignoreCache).events world s)
    {range : Cache.Range Rdap.IpNetwork}
    (hrange : range ∈ ((execute c q ignoreCache).run world s).2.ranges.family isV4) :
    range ∈ s.ranges.family isV4 ∨ range.expiresAt = s.now + lifetime c .ipNetwork := by
  obtain ⟨-, -, -, -, target, allocation, hranges⟩ := execute_of_remembered h
  rw [hranges] at hrange
  rcases Cache.Ranges.mem_of_mem_store hrange with ⟨hold, -⟩ | ⟨-, rfl⟩
  · exact .inl (Cache.Ranges.mem_of_mem_search hold)
  · exact .inr rfl

end AssetGraph.Resolve

import AssetGraph.Proofs.Cache.Results
import AssetGraph.Proofs.Resolve.Search

/-!
# Histories

The states that executions and the passing of time lead to from empty caches, and where the entries and the ranges in
such a state can come from.
-/
namespace AssetGraph.Resolve

inductive Step where
  | execute (q : Query) (ignoreCache : Bool)
  | advance (milliseconds : Nat)
  deriving DecidableEq, Repr

def Step.apply (c : Config) (world : World) : Step → State → State
  | execute q ignoreCache, s => ((Resolve.execute c q ignoreCache).run world s).2
  | advance milliseconds, s => { s with now := s.now + milliseconds }

def after (c : Config) (world : World) (steps : List Step) (s : State) : State :=
  steps.foldl (fun s e => e.apply c world s) s

/-- The states that a history can lead to; it begins at any time with empty caches. -/
inductive Reachable (c : Config) (world : World) : State → Prop
  | fresh (now : Nat) : Reachable c world { now }
  | step {s : State} (h : Reachable c world s) (e : Step) : Reachable c world (e.apply c world s)

variable {c : Config} {world : World} {t : Task} {q : Query} {s s' : State} {r : Resolution (List Item)}
  {missing : Option Cause} {ignoreCache isV4 : Bool} {key : Identity} {e : Cache.Entry}

namespace Task

theorem results_run_of_service (h : t.service c = .resolve r missing) (s : State) :
    (r.run.run world s).2.results = s.results := by
  rcases asksOnly_of_service h with hr | ⟨-, -, rfl, -⟩
  · rw [hr.run_snd]
  · exact IpNetworks.results_run_resolve world t s

theorem mem_events_of_service (h : t.service c = .resolve r missing) {event : Event}
    (he : event ∈ r.run.events world s) :
    (∃ found, event = .searched found) ∨ (∃ request, event = .asked request) ∨ ∃ n, event = .remembered n := by
  rcases asksOnly_of_service h with hr | ⟨-, -, rfl, -⟩
  · exact .inr (.inl (hr.mem_events he))
  · exact IpNetworks.mem_events_resolve he

theorem lookedUp_notMem_events_of_service (h : t.service c = .resolve r missing) (s : State) (key : Identity)
    (found : Bool) : Event.lookedUp key found ∉ r.run.events world s := by
  intro hmem
  rcases mem_events_of_service h hmem with ⟨_, hother⟩ | ⟨_, hother⟩ | ⟨_, hother⟩ <;> cases hother

/-- The five ways in which serving a task can go. -/
theorem serve_cases (c : Config) (world : World) (t : Task) (s : State) :
    (∃ o, t.service c = .answer o ∧ (t.serve (t.service c)).run world s = (some o, s) ∧
      (t.serve (t.service c)).events world s = []) ∨
    (∃ m, t.service c = .replay m ∧ (t.serve (t.service c)).run world s =
        (some (((t.recalled? s).map (t.deliver (some m))).getD (.error (t.failure m))), t.afterLookup s) ∧
      (t.serve (t.service c)).events world s = [.lookedUp t.key (t.recalled? s).isSome]) ∨
    (∃ r missing o, t.service c = .resolve r missing ∧ t.recalled? s = some o ∧
      (t.serve (t.service c)).run world s = (some (t.deliver missing o), t.afterLookup s) ∧
      (t.serve (t.service c)).events world s = [.lookedUp t.key true]) ∨
    (∃ r missing s', t.service c = .resolve r missing ∧ t.recalled? s = none ∧
      r.run.run world (t.afterLookup s) = (none, s') ∧ s'.results = (t.afterLookup s).results ∧
      (t.serve (t.service c)).run world s = (none, s') ∧
      (t.serve (t.service c)).events world s = .lookedUp t.key false :: r.run.events world (t.afterLookup s)) ∨
    ∃ r missing result s', t.service c = .resolve r missing ∧ t.recalled? s = none ∧
      r.run.run world (t.afterLookup s) = (some result, s') ∧ s'.results = (t.afterLookup s).results ∧
      s'.now = s.now ∧
      (t.serve (t.service c)).run world s =
        (some (t.deliver missing (t.outcome result)), t.afterKeeping (t.outcome result) s') ∧
      (t.serve (t.service c)).events world s = .lookedUp t.key false :: r.run.events world (t.afterLookup s) ++
        if (t.outcome result).isCacheable then [.kept t.key] else [] := by
  cases hservice : t.service c with
  | answer o => exact .inl ⟨o, rfl, rfl, rfl⟩
  | replay m => exact .inr (.inl ⟨m, rfl, run_serve_replay t m s, events_serve_replay t m s⟩)
  | resolve r missing =>
    right
    right
    cases hrecalled : t.recalled? s with
    | some o =>
      exact .inl ⟨r, missing, o, rfl, rfl, run_serve_recalled hrecalled, events_serve_recalled hrecalled⟩
    | none =>
      right
      have hresults : (r.run.run world (t.afterLookup s)).2.results = (t.afterLookup s).results :=
        results_run_of_service hservice _
      have hnow : (r.run.run world (t.afterLookup s)).2.now = s.now := Plan.now_run _ _
      rcases hrun : r.run.run world (t.afterLookup s) with ⟨_ | result, s'⟩
      · simp only [hrun] at hresults
        exact .inl ⟨r, missing, s', rfl, rfl, hrun, hresults, run_serve_unanswered hrecalled hrun,
          events_serve_unanswered hrecalled hrun⟩
      · simp only [hrun] at hresults hnow
        exact .inr ⟨r, missing, result, s', rfl, rfl, hrun, hresults, hnow, run_serve_resolved hrecalled hrun,
          events_serve_resolved hrecalled hrun⟩

theorem find?_serve (h : ((t.serve (t.service c)).run world s).2.results.find? key = some e) :
    s.results.find? key = some e ∨
      ∃ r missing result, t.service c = .resolve r missing ∧ key = t.key ∧
        (r.run.run world (t.afterLookup s)).1 = some result ∧ e = ⟨t.outcome result, s.now + t.ttl⟩ := by
  rcases serve_cases c world t s with ⟨o, -, hserve, -⟩ | ⟨m, -, hserve, -⟩ | ⟨r, missing, o, -, -, hserve, -⟩ |
    ⟨r, missing, s', -, -, -, hresults, hserve, -⟩ |
    ⟨r, missing, result, s', hservice, -, hrun, hresults, hnow, hserve, -⟩
  · rw [hserve] at h
    exact .inl h
  · rw [hserve] at h
    exact .inl (Cache.Results.find?_of_find?_lookup h)
  · rw [hserve] at h
    exact .inl (Cache.Results.find?_of_find?_lookup h)
  · rw [hserve, hresults] at h
    exact .inl (Cache.Results.find?_of_find?_lookup h)
  · rw [hserve] at h
    simp only [afterKeeping, Cache.Results.find?_settle, hresults, hnow] at h
    split at h
    · rename_i hkey
      cases h
      exact .inr ⟨r, missing, result, hservice, hkey.1, by rw [hrun], rfl⟩
    · exact .inl (Cache.Results.find?_of_find?_lookup h)

/-- An unexpired entry stays, unless its own query is executed past the cache. Only an outcome under its own key could take its place,
and with the cache that key is recalled. -/
theorem find?_serve_of_live (h : s.results.find? key = some e) (he : s.now < e.expiresAt)
    (hkey : key ≠ t.key ∨ t.ignoreCache = false) :
    ((t.serve (t.service c)).run world s).2.results.find? key = some e := by
  have hlookup : (t.afterLookup s).results.find? key = some e := Cache.Results.find?_lookup_of_live h he
  rcases serve_cases c world t s with ⟨o, -, hserve, -⟩ | ⟨m, -, hserve, -⟩ | ⟨r, missing, o, -, -, hserve, -⟩ |
    ⟨r, missing, s', -, -, -, hresults, hserve, -⟩ |
    ⟨r, missing, result, s', hservice, hrecalled, -, hresults, hnow, hserve, -⟩
  · rw [hserve]
    exact h
  · rw [hserve]
    exact hlookup
  · rw [hserve]
    exact hlookup
  · rw [hserve, hresults]
    exact hlookup
  · have hne : key ≠ t.key := by
      rintro rfl
      have hwanted : t.ignoreCache = false := hkey.resolve_left fun hne => hne rfl
      have hfound : t.recalled? s = some e.outcome :=
        Cache.Results.lookup_eq_some_iff.mpr ⟨hwanted, e, h, he, rfl⟩
      rw [hfound] at hrecalled
      cases hrecalled
    rw [hserve]
    simp only [afterKeeping, Cache.Results.find?_settle, hresults, hne, false_and, if_false, hlookup]

theorem mem_family_serve {range : Cache.Range Rdap.IpNetwork}
    (h : range ∈ ((t.serve (t.service c)).run world s).2.ranges.family isV4) :
    range ∈ s.ranges.family isV4 ∨
      ∃ answer, world s.requests (.rdap (IpNetworks.request t.text)) = some answer ∧
        IpNetworks.allocationOf t.text answer = .ok (range.value, range.network) ∧ range.network.isV4 = isV4 := by
  have hresolution : ∀ {r missing}, t.service c = .resolve r missing →
      range ∈ (r.run.run world (t.afterLookup s)).2.ranges.family isV4 →
      range ∈ s.ranges.family isV4 ∨
        ∃ answer, world s.requests (.rdap (IpNetworks.request t.text)) = some answer ∧
          IpNetworks.allocationOf t.text answer = .ok (range.value, range.network) ∧
            range.network.isV4 = isV4 := by
    intro r missing hservice hmem
    rcases asksOnly_of_service hservice with hr | ⟨-, -, rfl, -⟩
    · rw [hr.run_snd] at hmem
      exact .inl hmem
    · exact (IpNetworks.mem_family_run_resolve hmem :)
  rcases serve_cases c world t s with ⟨o, -, hserve, -⟩ | ⟨m, -, hserve, -⟩ | ⟨r, missing, o, -, -, hserve, -⟩ |
    ⟨r, missing, s', hservice, -, hrun, -, hserve, -⟩ |
    ⟨r, missing, result, s', hservice, -, hrun, -, -, hserve, -⟩
  · rw [hserve] at h
    exact .inl h
  · rw [hserve] at h
    exact .inl h
  · rw [hserve] at h
    exact .inl h
  · rw [hserve] at h
    exact hresolution hservice (by rw [hrun]; exact h)
  · rw [hserve] at h
    exact hresolution hservice (by rw [hrun]; exact h)

end Task

/-- An entry after an execution was there before, or is what the resolution of the query came to. -/
theorem find?_execute (h : ((execute c q ignoreCache).run world s).2.results.find? key = some e) :
    s.results.find? key = some e ∨
      ∃ type r missing result, ItemType.ofName? q.type = some type ∧
        let t := Task.ofQuery c type q ignoreCache
        t.service c = .resolve r missing ∧ key = t.key ∧
          (r.run.run world (t.afterLookup s)).1 = some result ∧ e = ⟨t.outcome result, s.now + t.ttl⟩ := by
  cases htype : ItemType.ofName? q.type with
  | none =>
    obtain ⟨o, ho⟩ := execute_unknown c htype
    rw [ho] at h
    exact .inl h
  | some type =>
    rw [execute_known c htype] at h
    rcases Task.find?_serve h with hold | ⟨r, missing, result, hservice, hkey, hrun, he⟩
    · exact .inl hold
    · exact .inr ⟨type, r, missing, result, rfl, hservice, hkey, hrun, he⟩

/-- A range after an execution was there before, or is an allocation that a registry just reported. -/
theorem mem_family_execute {range : Cache.Range Rdap.IpNetwork}
    (h : range ∈ ((execute c q ignoreCache).run world s).2.ranges.family isV4) :
    range ∈ s.ranges.family isV4 ∨
      ∃ answer, world s.requests (.rdap (IpNetworks.request q.text)) = some answer ∧
        IpNetworks.allocationOf q.text answer = .ok (range.value, range.network) ∧ range.network.isV4 = isV4 := by
  cases htype : ItemType.ofName? q.type with
  | none =>
    obtain ⟨o, ho⟩ := execute_unknown c htype
    rw [ho] at h
    exact .inl h
  | some type =>
    rw [execute_known c htype] at h
    exact Task.mem_family_serve h

theorem find?_execute_of_live (h : s.results.find? key = some e) (he : s.now < e.expiresAt)
    (hkey : ∀ type, ItemType.ofName? q.type = some type →
      key ≠ (Task.ofQuery c type q ignoreCache).key ∨ ignoreCache = false) :
    ((execute c q ignoreCache).run world s).2.results.find? key = some e := by
  cases htype : ItemType.ofName? q.type with
  | none =>
    obtain ⟨o, ho⟩ := execute_unknown c htype
    rw [ho]
    exact h
  | some type =>
    rw [execute_known c htype]
    exact Task.find?_serve_of_live h he (hkey type htype)

theorem Step.now_le (step : Step) (s : State) : s.now ≤ (step.apply c world s).now := by
  cases step with
  | execute q ignoreCache => exact Nat.le_of_eq (Plan.now_run _ _).symm
  | advance milliseconds => exact Nat.le_add_right _ _

theorem now_le_after (steps : List Step) (s : State) : s.now ≤ (after c world steps s).now := by
  induction steps generalizing s with
  | nil => exact Nat.le_refl _
  | cons step steps ih => exact Nat.le_trans (step.now_le s) (ih _)

namespace Reachable

theorem after (h : Reachable c world s) (steps : List Step) : Reachable c world (after c world steps s) := by
  induction steps generalizing s with
  | nil => exact h
  | cons step steps ih => exact ih (h.step step)

/-- Every kept outcome is what the resolution of a task with its key came to, after some of the requests that were sent so far. -/
theorem exists_resolution (h : Reachable c world s) (he : s.results.find? key = some e) :
    ∃ t r missing result s', s'.requests <+: s.requests ∧ t.key = key ∧ t.ttl = lifetime c t.type ∧
      Task.service c t = .resolve r missing ∧ (r.run.run world s').1 = some result ∧ e.outcome = t.outcome result := by
  induction h generalizing e with
  | fresh now => cases he
  | @step s _ step ih =>
    cases step with
    | advance milliseconds => exact ih he
    | execute q ignoreCache =>
      have hsent : s.requests <+: ((execute c q ignoreCache).run world s).2.requests := ⟨_, (Plan.requests_run _ s).symm⟩
      rcases find?_execute he with hold | ⟨type, r, missing, result, -, hservice, rfl, hrun, rfl⟩
      · obtain ⟨t, r, missing, result, s', hearlier, hresolved⟩ := ih hold
        exact ⟨t, r, missing, result, s', hearlier.trans hsent, hresolved⟩
      · exact ⟨_, r, missing, result, Task.afterLookup _ s, hsent, rfl, rfl, hservice, hrun, rfl⟩

theorem exists_result (h : Reachable c world s) (he : s.results.find? key = some e) :
    ∃ t r missing result s', t.key = key ∧ t.ttl = lifetime c t.type ∧ Task.service c t = .resolve r missing ∧
      (r.run.run world s').1 = some result ∧ e.outcome = t.outcome result := by
  obtain ⟨t, r, missing, result, s', -, hresolved⟩ := h.exists_resolution he
  exact ⟨t, r, missing, result, s', hresolved⟩

/-- What a resolved query ends in is what its resolution comes to, now or after some of the requests that were sent so far. -/
theorem exists_resolved {type : ItemType} {o : Outcome} (h : Reachable c world s) (htype : ItemType.ofName? q.type = some type)
    (hservice : (Task.ofQuery c type q ignoreCache).service c = .resolve r missing)
    (hrun : ((execute c q ignoreCache).run world s).1 = some o) :
    ∃ result s', s'.requests <+: s.requests ∧ (r.run.run world s').1 = some result ∧
      o = (Task.ofQuery c type q ignoreCache).deliver missing ((Task.ofQuery c type q ignoreCache).outcome result) := by
  let t := Task.ofQuery c type q ignoreCache
  rw [execute_known c htype, hservice] at hrun
  cases hrecalled : t.recalled? s with
  | some outcome =>
    rw [Task.run_serve_recalled hrecalled] at hrun
    cases hrun
    obtain ⟨-, e, he, -, rfl⟩ := Cache.Results.lookup_eq_some_iff.mp hrecalled
    obtain ⟨u, r', missing', result, s', hearlier, hkey, hu, hresolve, hresult, houtcome⟩ := h.exists_resolution he
    rw [Task.service_eq_of_key_eq hkey hu rfl, hservice] at hresolve
    cases hresolve
    rw [houtcome, Task.outcome_eq_of_key_eq hkey]
    exact ⟨result, s', hearlier, hresult, rfl⟩
  | none =>
    rcases hresult : r.run.run world (t.afterLookup s) with ⟨_ | result, s'⟩
    · rw [Task.run_serve_unanswered hrecalled hresult] at hrun
      cases hrun
    · rw [Task.run_serve_resolved hrecalled hresult] at hrun
      cases hrun
      exact ⟨result, t.afterLookup s, List.prefix_refl _, congrArg Prod.fst hresult, rfl⟩

theorem find?_of_replay {m : Cause} (h : Reachable c world s) (ht : t.ttl = lifetime c t.type)
    (hservice : t.service c = .replay m) : s.results.find? t.key = none := by
  by_contra hfound
  obtain ⟨e, he⟩ := Option.ne_none_iff_exists'.mp hfound
  obtain ⟨u, r, missing, -, -, hkey, hu, hresolve, -, -⟩ := h.exists_result he
  rw [Task.service_eq_of_key_eq hkey hu ht, hservice] at hresolve
  cases hresolve

theorem recalled?_of_replay {m : Cause} (h : Reachable c world s) (ht : t.ttl = lifetime c t.type)
    (hservice : t.service c = .replay m) : t.recalled? s = none := by
  have habsent := h.find?_of_replay ht hservice
  rw [Option.eq_none_iff_forall_ne_some]
  intro o ho
  obtain ⟨-, e, he, -, -⟩ := Cache.Results.lookup_eq_some_iff.mp ho
  rw [habsent] at he
  cases he

end Reachable
end AssetGraph.Resolve

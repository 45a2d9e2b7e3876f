import AssetGraph.Proofs.Resolve.Causality
import AssetGraph.Proofs.Resolve.Footprint
import AssetGraph.Proofs.Resolve.Stores

/-!
# Executing past the cache

What was kept before does not show in an execution past the cache: not in its answer, not in what it asks or remembers,
and not in what it keeps. It leaves everything that is kept under other keys alone.
-/
namespace AssetGraph.Resolve

variable {c : Config} {world : World} {q : Query} {s : State} {key : Identity} {ignoreCache : Bool}

theorem find?_of_kept (h : Event.kept key ∈ (execute c q ignoreCache).events world s) :
    ∃ e : Cache.Entry, e.outcome.isCacheable ∧
      ((execute c q ignoreCache).run world s).2.results.find? key = some e := by
  obtain ⟨type, htype⟩ := known_of_mem_events h
  rw [execute_known c htype] at h ⊢
  obtain ⟨o, hcacheable, hfound⟩ := Task.find?_of_kept h
  exact ⟨⟨o, _⟩, hcacheable, hfound⟩

/-- Whatever the cache holds, an execution past it goes the same way, asks the same, and leaves the same allocations. When
it keeps an outcome, it keeps the same one under the identity of its query; all else that is kept stays as it is. -/
theorem bypass_independent (c : Config) (world : World) (q : Query) (s : State) (results : Cache.Results) :
    let plan := execute c q true
    let s' := { s with results }
    let after := (plan.run world s).2
    let after' := (plan.run world s').2
    (plan.run world s').1 = (plan.run world s).1 ∧ plan.events world s' = plan.events world s ∧
      after'.requests = after.requests ∧ after'.ranges = after.ranges ∧
      (∀ key, Event.kept key ∈ plan.events world s → key = q.identity ∧
        ∃ e : Cache.Entry, e.outcome.isCacheable ∧ after.results.find? key = some e ∧
          after'.results.find? key = some e) ∧
      ∀ key, Event.kept key ∉ plan.events world s →
        after.results.find? key = s.results.find? key ∧ after'.results.find? key = results.find? key := by
  intro plan s' after after'
  have hplan : plan.Within (footprint q true) := execute_within c q true
  have halike : (footprint q true).Alike world s s' := ⟨rfl, fun _ => rfl, nofun, fun _ _ => rfl⟩
  obtain ⟨hresult, hevents, -⟩ := hplan.run_alike halike
  refine ⟨hresult, hevents, ?_, hplan.ranges_run_alike halike rfl, fun key hkept => ?_, fun key hkept => ?_⟩
  · rw [Plan.requests_run, Plan.requests_run, hevents]
  · obtain rfl : key = q.identity := hplan.eq_key_of_kept hkept
    obtain ⟨e, hcacheable, hfound⟩ := find?_of_kept hkept
    exact ⟨rfl, e, hcacheable, hfound, (hplan.find?_run_alike halike (.inr hkept)).trans hfound⟩
  · exact ⟨hplan.find?_run_of_not_kept (.inr rfl) hkept, hplan.find?_run_of_not_kept (.inr rfl) (hevents ▸ hkept)⟩

/-- What an earlier empty answer left under the query is replaced by what a run that found nothing kept would keep. -/
theorem bypass_past_empty_answer :
    let world := knowing (.autnum {})
    let q : Query := ⟨"rdap-asn", .get, "AS1", "global"⟩
    let plan := execute {} q true
    let results := ({} : Cache.Results).store 0 q.identity (.ok []) 1000
    let s' : State := { results }
    let other : Query := ⟨"rdap-asn", .get, "AS2", "global"⟩
    .kept q.identity ∈ plan.events world {} ∧ .kept other.identity ∉ plan.events world {} ∧
      (plan.run world s').1 = (plan.run world {}).1 ∧
      (plan.run world s').2.results.find? q.identity = (plan.run world {}).2.results.find? q.identity ∧
      (plan.run world s').2.results.find? other.identity = results.find? other.identity := by
  intro world q plan results s' other
  have hkept : .kept q.identity ∈ plan.events world {} := by decide +kernel
  have hother : .kept other.identity ∉ plan.events world {} := by decide +kernel
  obtain ⟨hresult, -, -, -, hsame, huntouched⟩ := bypass_independent {} world q {} results
  obtain ⟨-, e, -, hfound, hfound'⟩ := hsame q.identity hkept
  exact ⟨hkept, hother, hresult, hfound'.trans hfound.symm, (huntouched other.identity hother).2⟩

end AssetGraph.Resolve

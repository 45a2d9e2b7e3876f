import AssetGraph.Proofs.Resolve.Stores

/-!
# Dropped executions

An execution stores nothing before its last request. One that is dropped while it waits for an answer has therefore
stored nothing, whichever request it waits at.
-/
namespace AssetGraph.Resolve

open IpNetworks

variable {c : Config} {world : World} {t : Task} {s s' : State} {r : Resolution (List Item)} {missing : Option Cause}
  {e : Event} {request : Request} {events before following : List Event}

/-- Whether no effect that changes a cache for later executions comes before a request. -/
def StoresLast (events : List Event) : Prop :=
  events.Pairwise fun e e' => e.isStore = true → e'.request? = none

namespace StoresLast

theorem of_stores_nothing (h : ∀ e ∈ events, e.isStore = false) : StoresLast events := by
  refine List.pairwise_of_forall_mem_list fun e he e' _ hstore => ?_
  rw [h e he] at hstore
  cases hstore

theorem cons (he : e.isStore = false) (h : StoresLast events) : StoresLast (e :: events) := by
  refine List.pairwise_cons.mpr ⟨fun e' _ hstore => ?_, h⟩
  rw [he] at hstore
  cases hstore

theorem append (h : StoresLast events) (hfollowing : ∀ e ∈ following, e.request? = none) :
    StoresLast (events ++ following) := by
  refine List.pairwise_append.mpr ⟨h, ?_, fun e _ e' he' _ => hfollowing e' he'⟩
  exact List.pairwise_of_forall_mem_list fun e _ e' he' _ => hfollowing e' he'

theorem stores_nothing_before (h : StoresLast (before ++ .asked request :: following)) :
    ∀ e ∈ before, e.isStore = false := by
  intro e he
  obtain ⟨-, -, hcross⟩ := List.pairwise_append.mp h
  cases hstore : e.isStore with
  | false => rfl
  | true =>
    have hother := hcross e he (.asked request) List.mem_cons_self hstore
    cases hother

theorem resolve (world : World) (t : Task) (s : State) : StoresLast ((resolve t).run.events world s) := by
  rcases resolve_cases world t s with ⟨-, -, hevents⟩ | ⟨target, range, -, -, -, hevents⟩ |
    ⟨target, -, -, -, hevents⟩ | ⟨target, answer, -, -, -, -, hevents⟩
  · rw [hevents]
    exact List.Pairwise.nil
  · rw [hevents]
    exact of_stores_nothing (by simp [Event.isStore])
  · rw [hevents]
    exact of_stores_nothing (by simp [Event.isStore])
  · rw [hevents]
    refine append (of_stores_nothing (by simp [Event.isStore])) ?_
    split <;> simp [Event.request?]

theorem of_service (h : t.service c = .resolve r missing) (s : State) : StoresLast (r.run.events world s) := by
  rcases Task.asksOnly_of_service h with hr | ⟨-, -, rfl, -⟩
  · refine of_stores_nothing fun e he => ?_
    obtain ⟨request, rfl⟩ := hr.mem_events he
    rfl
  · exact resolve world t s

theorem serve (c : Config) (world : World) (t : Task) (s : State) :
    StoresLast ((t.serve (t.service c)).events world s) := by
  rcases Task.serve_cases c world t s with ⟨o, -, -, hevents⟩ | ⟨m, -, -, hevents⟩ | ⟨r, missing, o, -, -, -, hevents⟩ |
    ⟨r, missing, s', hservice, -, -, -, -, hevents⟩ |
    ⟨r, missing, result, s', hservice, -, -, -, -, -, hevents⟩
  · rw [hevents]
    exact List.Pairwise.nil
  · rw [hevents]
    exact of_stores_nothing (by simp [Event.isStore])
  · rw [hevents]
    exact of_stores_nothing (by simp [Event.isStore])
  · rw [hevents]
    exact cons rfl (of_service hservice _)
  · rw [hevents, List.cons_append]
    refine cons rfl (append (of_service hservice _) ?_)
    split <;> simp [Event.request?]

theorem execute (c : Config) (world : World) (q : Query) (ignoreCache : Bool) (s : State) :
    StoresLast ((execute c q ignoreCache).events world s) := by
  cases htype : ItemType.ofName? q.type with
  | none =>
    obtain ⟨o, ho⟩ := execute_unknown c htype
    rw [ho]
    exact List.Pairwise.nil
  | some type =>
    rw [execute_known c htype]
    exact serve c world _ s

end StoresLast

/-- The world that answers the requests among some effects that follow a state, and none after them. -/
def World.silentAfter (world : World) (s : State) (effects : List Event) : World := fun sent request =>
  if sent.length < s.requests.length + (effects.filterMap Event.request?).length then world sent request else none

theorem World.silentAfter_cons (he : e.request? = none) (hs : s'.requests = s.requests) :
    world.silentAfter s (e :: events) = world.silentAfter s' events := by
  funext sent request
  rw [silentAfter, silentAfter, hs, List.filterMap_cons_none he]

theorem World.silentAfter_asked :
    world.silentAfter s (.asked request :: events) =
      world.silentAfter { s with requests := s.requests ++ [request] } events := by
  funext sent other
  have hcount : s.requests.length + ((Event.asked request :: events).filterMap Event.request?).length =
      (s.requests ++ [request]).length + (events.filterMap Event.request?).length := by
    have hnoted : (Event.asked request :: events).filterMap Event.request? =
        request :: events.filterMap Event.request? := rfl
    rw [hnoted, List.length_cons, List.length_append, List.length_singleton]
    omega
  rw [silentAfter, silentAfter, hcount]

namespace Plan

variable {α : Type} {p : Plan α}

theorem run_silentAfter_cons (he : e.request? = none) (hs : s'.requests = s.requests)
    (h : e :: p.events world s' = before ++ .asked request :: following)
    (hrest : ∀ rest, p.events world s' = rest ++ .asked request :: following →
      p.events (world.silentAfter s' rest) s' = rest ++ [.asked request] ∧
        (p.run (world.silentAfter s' rest) s').1 = none) :
    e :: p.events (world.silentAfter s before) s' = before ++ [.asked request] ∧
      (p.run (world.silentAfter s before) s').1 = none := by
  cases before with
  | nil =>
    rw [List.nil_append, List.cons.injEq] at h
    rw [h.1] at he
    cases he
  | cons first rest =>
    rw [List.cons_append, List.cons.injEq] at h
    obtain ⟨rfl, htail⟩ := h
    obtain ⟨hevents, hrun⟩ := hrest rest htail
    rw [World.silentAfter_cons he hs, hevents]
    exact ⟨rfl, hrun⟩

/-- A plan that waits in vain for the answer to one of its requests has done what comes before it, and does not end. -/
theorem run_silentAfter (p : Plan α) (s : State) (h : p.events world s = before ++ .asked request :: following) :
    p.events (world.silentAfter s before) s = before ++ [.asked request] ∧
      (p.run (world.silentAfter s before) s).1 = none := by
  induction p generalizing s before with
  | done a => simp [events] at h
  | lookUp key ignoreCache next ih => exact run_silentAfter_cons rfl rfl h fun rest => ih _ _
  | findAddress a next ih => exact run_silentAfter_cons rfl rfl h fun rest => ih _ _
  | findNetwork n next ih => exact run_silentAfter_cons rfl rfl h fun rest => ih _ _
  | ask first next ih =>
    simp only [events] at h
    cases before with
    | nil =>
      rw [List.nil_append, List.cons.injEq, Event.asked.injEq] at h
      obtain ⟨rfl, -⟩ := h
      simp [events, run, World.silentAfter]
    | cons e rest =>
      rw [List.cons_append, List.cons.injEq] at h
      obtain ⟨rfl, hrest⟩ := h
      cases hanswer : world s.requests first with
      | none => simp [hanswer] at hrest
      | some answer =>
        rw [hanswer] at hrest
        have hanswered : world.silentAfter s (.asked first :: rest) s.requests first = some answer := by
          simp [World.silentAfter, Event.request?, hanswer]
        obtain ⟨hevents, hrun⟩ := ih answer { s with requests := s.requests ++ [first] } hrest
        rw [← World.silentAfter_asked] at hevents hrun
        simp only [events, run, hanswered, hevents]
        exact ⟨rfl, hrun⟩
  | remember n allocation ttl next ih => exact run_silentAfter_cons rfl rfl h fun rest => ih _
  | keep key outcome ttl next ih =>
    by_cases hcacheable : outcome.isCacheable = true
    · simp only [events, if_pos hcacheable] at h ⊢
      exact run_silentAfter_cons rfl rfl h fun rest => ih _
    · simp only [events, if_neg hcacheable] at h ⊢
      exact ih _ h

end Plan

/-- An execution stores nothing before its last request. Dropped at any of its requests, it leaves the unexpired
contents of both caches as they were. -/
theorem dropped_stores_nothing (c : Config) (world : World) (s : State) (q : Query) (ignoreCache : Bool) :
    let plan := execute c q ignoreCache
    StoresLast (plan.events world s) ∧
      ∀ before request following, plan.events world s = before ++ .asked request :: following →
        let dropped := world.silentAfter s before
        plan.events dropped s = before ++ [.asked request] ∧ (plan.run dropped s).1 = none ∧
          SameAllocations s (plan.run dropped s).2 ∧ ∀ key, SameOutcome key s (plan.run dropped s).2 := by
  intro plan
  have hlast : StoresLast (plan.events world s) := .execute c world q ignoreCache s
  refine ⟨hlast, fun before request following hsplit => ?_⟩
  intro dropped
  obtain ⟨hevents, hrun⟩ := Plan.run_silentAfter plan s hsplit
  rw [hsplit] at hlast
  have hstores : ∀ e ∈ plan.events dropped s, e.isStore = false := by
    intro e he
    rw [hevents, List.mem_append, List.mem_singleton] at he
    rcases he with hbefore | rfl
    · exact hlast.stores_nothing_before e hbefore
    · rfl
  refine ⟨hevents, hrun, Plan.sameAllocations_run plan s fun n hn => ?_, fun key =>
    Plan.sameOutcome_run plan s fun hkept => ?_⟩
  · cases hstores _ hn
  · cases hstores _ hkept

/-- A search for a name that is dropped at its second question, beside a remembered allocation. -/
theorem dropped_stores_nothing_second :
    let world := (Client.ofAllocation { startAddress := "1.1.1.0", endAddress := "1.1.1.255" }).world
    let s := after {} world [.execute ⟨"rdap-ip-network", .search, "1.1.1.1", "global"⟩ false] {}
    let plan := execute {} ⟨"dns", .search, "example.org", "global"⟩ false
    let key : Identity := ⟨"stdlib-dns", .search, "global", "dns", "example.org"⟩
    let before := [Event.lookedUp key false, .asked (.dns ⟨"example.org.", .a⟩)]
    let dropped := (plan.run (world.silentAfter s before) s).2
    plan.events world s = before ++ .asked (.dns ⟨"example.org.", .aaaa⟩) :: [.kept key] ∧
      (s.ranges.unexpired s.now true).length = 1 ∧ SameAllocations s dropped ∧ ∀ key, SameOutcome key s dropped := by
  intro world s plan key before dropped
  have hsplit : plan.events world s = before ++ .asked (.dns ⟨"example.org.", .aaaa⟩) :: [.kept key] := by
    decide +kernel
  obtain ⟨-, hdropped⟩ := dropped_stores_nothing {} world s ⟨"dns", .search, "example.org", "global"⟩ false
  obtain ⟨-, -, hallocations, houtcomes⟩ := hdropped _ _ _ hsplit
  exact ⟨hsplit, by decide +kernel, hallocations, houtcomes⟩

end AssetGraph.Resolve

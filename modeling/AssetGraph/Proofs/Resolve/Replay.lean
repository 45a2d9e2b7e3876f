import AssetGraph.Proofs.Resolve.History

/-!
# Answers are given again

An answer that may be kept is given again, word for word and without asking, until its time is up. Nothing but executing
the same query past the cache can change that before, and where the resolution of the query comes to the same in every state, nothing
at all: executing it past the cache keeps the same answer for longer.
-/
namespace AssetGraph.Resolve

variable {c : Config} {world : World} {t : Task} {q q' : Query} {s s₁ : State} {type type' : ItemType}
  {missing : Option Cause} {ignoreCache ignoreCache' : Bool} {key : Identity} {e : Cache.Entry} {o : Outcome}

theorem Task.query_eq_of_key_eq (htype : ItemType.ofName? q.type = some type)
    (htype' : ItemType.ofName? q'.type = some type')
    (h : (Task.ofQuery c type q ignoreCache).key = (Task.ofQuery c type' q' ignoreCache').key) : q = q' := by
  obtain ⟨name, method, text, scope⟩ := q
  obtain ⟨name', method', text', scope'⟩ := q'
  simp only [key, ofQuery, Identity.mk.injEq] at h
  obtain ⟨-, rfl, rfl, hname, rfl⟩ := h
  rw [ItemType.name_of_ofName? htype, ItemType.name_of_ofName? htype'] at hname
  dsimp only at hname
  rw [hname]

theorem Task.isCacheable_of_deliver (h : (t.deliver missing o).isCacheable) : o.isCacheable := by
  cases o with
  | ok items => rfl
  | error e =>
    cases missing with
    | none => exact h
    | some m => exact h

/-- An entry outlives every step before its time is up, except its own query past the cache. -/
theorem find?_after_of_live {steps : List Step} (htype : ItemType.ofName? q.type = some type)
    (h : s.results.find? (Task.ofQuery c type q ignoreCache).key = some e)
    (he : (after c world steps s).now < e.expiresAt) (hsteps : Step.execute q true ∉ steps) :
    (after c world steps s).results.find? (Task.ofQuery c type q ignoreCache).key = some e := by
  induction steps generalizing s with
  | nil => exact h
  | cons step steps ih =>
    rw [List.mem_cons, not_or] at hsteps
    refine ih ?_ he hsteps.2
    have hlive : s.now < e.expiresAt := by
      have hle : s.now ≤ (after c world (step :: steps) s).now := now_le_after _ s
      omega
    cases step with
    | advance milliseconds => exact h
    | execute q' ignoreCache' =>
      apply find?_execute_of_live h hlive
      intro type' htype'
      by_cases hkey : (Task.ofQuery c type q ignoreCache).key = (Task.ofQuery c type' q' ignoreCache').key
      · have hq : q = q' := Task.query_eq_of_key_eq htype htype' hkey
        right
        cases ignoreCache' with
        | false => rfl
        | true => exact absurd (by rw [hq]) hsteps.1
      · exact .inl hkey

theorem find?_of_run_serve {r : Resolution (List Item)} (hservice : t.service c = .resolve r missing)
    (hrun : (t.serve (t.service c)).run world s = (some o, s₁)) (hmiss : t.recalled? s = none)
    (ho : o.isCacheable) :
    ∃ outcome, s₁.results.find? t.key = some ⟨outcome, s₁.now + t.ttl⟩ ∧ o = t.deliver missing outcome := by
  rw [hservice] at hrun
  rcases hresult : r.run.run world (t.afterLookup s) with ⟨_ | result, s'⟩
  · rw [Task.run_serve_unanswered hmiss hresult] at hrun
    cases hrun
  · rw [Task.run_serve_resolved hmiss hresult] at hrun
    cases hrun
    have hkept : (t.outcome result).isCacheable := Task.isCacheable_of_deliver ho
    refine ⟨t.outcome result, ?_, rfl⟩
    simp only [Task.afterKeeping, Cache.Results.find?_settle, hkept, and_self, if_true]

theorem run_serve_of_live {r : Resolution (List Item)} (hservice : t.service c = .resolve r missing)
    (hwanted : t.ignoreCache = false) (h : s.results.find? t.key = some e) (he : s.now < e.expiresAt) :
    ((t.serve (t.service c)).run world s).1 = some (t.deliver missing e.outcome) ∧
      ((t.serve (t.service c)).run world s).2.requests = s.requests := by
  have hrecalled : t.recalled? s = some e.outcome :=
    Cache.Results.lookup_eq_some_iff.mpr ⟨hwanted, e, h, he, rfl⟩
  rw [hservice, Task.run_serve_recalled hrecalled]
  exact ⟨rfl, rfl⟩

/-- An answer that did not come from the kept outcomes, and is a success, an absence or a failed exchange, is given
again for the lifetime of its type, whatever else is executed. Addresses describe themselves at any time. -/
theorem replays_until_expiry (h : Reachable c world s) (htype : ItemType.ofName? q.type = some type)
    (hrun : (execute c q ignoreCache).run world s = (some o, s₁))
    (hmiss : ∀ key, Event.lookedUp key true ∉ (execute c q ignoreCache).events world s)
    (ho : (∃ items, o = .ok items) ∨ ∃ e, o = .error e ∧ (e.kind = .notFound ∨ e.kind = .exchangeFailed))
    (steps : List Step) (hsteps : Step.execute q true ∉ steps)
    (hnow : type ≠ .ip → (after c world steps s₁).now < s₁.now + lifetime c type) :
    ((execute c q false).run world (after c world steps s₁)).1 = some o ∧
      ((execute c q false).run world (after c world steps s₁)).2.requests = (after c world steps s₁).requests := by
  have hafter : Reachable c world (after c world steps s₁) := by
    have hstep := h.step (.execute q ignoreCache)
    simp only [Step.apply, hrun] at hstep
    exact hstep.after steps
  have hcacheable : o.isCacheable := by
    rcases ho with ⟨items, rfl⟩ | ⟨e, rfl, hkind | hkind⟩
    · rfl
    · simp only [Outcome.isCacheable, QueryError.isCacheable, hkind, ErrorKind.isCacheable]
    · simp only [Outcome.isCacheable, QueryError.isCacheable, hkind, ErrorKind.isCacheable]
  rw [execute_known c htype] at hrun hmiss ⊢
  have hsame : Task.service c (.ofQuery c type q false) = Task.service c (.ofQuery c type q ignoreCache) :=
    Task.service_withIgnoreCache c (.ofQuery c type q ignoreCache) false
  cases hservice : Task.service c (.ofQuery c type q ignoreCache) with
  | answer outcome =>
    rw [hservice] at hrun
    cases hrun
    rw [hsame, hservice]
    exact ⟨rfl, rfl⟩
  | replay m =>
    have hnow : (Task.ofQuery c type q ignoreCache).recalled? s = none := h.recalled?_of_replay rfl hservice
    rw [hservice, Task.run_serve_replay, hnow] at hrun
    cases hrun
    rw [hsame, hservice, Task.run_serve_replay, hafter.recalled?_of_replay rfl (hsame.trans hservice)]
    exact ⟨rfl, rfl⟩
  | resolve r missing =>
    have hrecalled : (Task.ofQuery c type q ignoreCache).recalled? s = none := by
      by_contra hfound
      obtain ⟨outcome, houtcome⟩ := Option.ne_none_iff_exists'.mp hfound
      apply hmiss (Task.ofQuery c type q ignoreCache).key
      rw [hservice, Task.events_serve_recalled houtcome]
      exact List.mem_singleton_self _
    obtain ⟨outcome, hkept, rfl⟩ := find?_of_run_serve hservice hrun hrecalled hcacheable
    have hlive := hnow (Task.type_ne_ip_of_service hservice)
    have hstill := find?_after_of_live htype hkept hlive hsteps
    exact run_serve_of_live (hsame.trans hservice) rfl hstill hlive

/-- A registry that answers once and never again: the answer is given to the last millisecond. -/
theorem replays_single_answer :
    let world : World := fun sent r =>
      if sent = [] then some (Client.ofAllocation { startAddress := "1.1.1.0", endAddress := "1.1.1.255" } r) else none
    let q : Query := ⟨"rdap-ip-network", .search, "1.1.1.1", "global"⟩
    let steps := [Step.execute ⟨"dns", .search, "example.org", "global"⟩ true, .advance 1000, .execute q false,
      .advance 1798999]
    let s₁ := ((execute {} q true).run world {}).2
    (after {} world steps s₁).now = 1799999 ∧
      ∃ items, ((execute {} q true).run world {}).1 = some (.ok items) ∧
        ((execute {} q false).run world (after {} world steps s₁)).1 = some (.ok items) ∧
        ((execute {} q false).run world (after {} world steps s₁)).2.requests =
          (after {} world steps s₁).requests := by
  intro world q steps s₁
  have hnow : (after {} world steps s₁).now = 1799999 := by decide +kernel
  have hevents : (execute {} q true).events world {} =
      [.lookedUp ⟨"rdap", .search, "global", "rdap-ip-network", "1.1.1.1"⟩ false, .searched none,
        .asked (.rdap ⟨.ipNetwork, "1.1.1.1", none⟩), .remembered ⟨.v4 0x01010100#32, 24, by decide, by decide⟩,
        .kept ⟨"rdap", .search, "global", "rdap-ip-network", "1.1.1.1"⟩] := by
    decide +kernel
  have hok : (((execute {} q true).run world {}).1.map Except.isOk) = some true := by decide +kernel
  obtain ⟨o, ho, hisOk⟩ := Option.map_eq_some_iff.mp hok
  cases o with
  | error e => cases hisOk
  | ok items =>
    have htype : ItemType.ofName? q.type = some .ipNetwork := by decide
    have hrun : (execute {} q true).run world {} = (some (.ok items), s₁) := Prod.ext ho rfl
    have hmiss : ∀ key, Event.lookedUp key true ∉ (execute {} q true).events world {} := by
      intro key
      rw [hevents]
      simp
    have hother : Step.execute q true ∉ steps := by decide
    have hin : (after {} world steps s₁).now < s₁.now + lifetime {} .ipNetwork := by decide +kernel
    exact ⟨hnow, items, ho,
      replays_until_expiry (.fresh 0) htype hrun hmiss (.inl ⟨items, rfl⟩) steps hother fun _ => hin⟩

variable {r : Resolution (List Item)} {result : Except Cause (List Item)} {outcome : Outcome} {deadline : Nat}

def Resolution.ComesTo (world : World) (r : Resolution (List Item)) (result : Except Cause (List Item)) : Prop :=
  ∀ s, (r.run.run world s).1 = some result

/-- Whether an outcome stays under a key until a deadline. -/
def KeepsUntil (key : Identity) (outcome : Outcome) (deadline : Nat) (s : State) : Prop :=
  ∃ e, s.results.find? key = some e ∧ e.outcome = outcome ∧ deadline ≤ e.expiresAt

section Steady

variable (htype : ItemType.ofName? q.type = some type)
  (hservice : (Task.ofQuery c type q true).service c = .resolve r missing) (hsteady : r.ComesTo world result)
  (hcacheable : ((Task.ofQuery c type q true).outcome result).isCacheable)

include htype hservice hsteady

theorem exists_run_past (s : State) :
    let t := Task.ofQuery c type q true
    ∃ s', s'.now = s.now ∧
      (execute c q true).run world s = (some (t.deliver missing (t.outcome result)), t.afterKeeping (t.outcome result) s') := by
  intro t
  obtain ⟨s', hresolved⟩ : ∃ s', r.run.run world (t.afterLookup s) = (some result, s') := ⟨_, Prod.ext (hsteady _) rfl⟩
  have hnow : (r.run.run world (t.afterLookup s)).2.now = s.now := Plan.now_run _ _
  rw [hresolved] at hnow
  exact ⟨s', hnow, Task.run_execute_resolved htype hservice rfl hresolved⟩

include hcacheable

namespace KeepsUntil

/-- An outcome that is resolved past the cache, and may be kept, stays for a lifetime. -/
theorem of_past (s : State) :
    KeepsUntil (Task.ofQuery c type q true).key ((Task.ofQuery c type q true).outcome result) (s.now + lifetime c type)
      ((execute c q true).run world s).2 := by
  obtain ⟨s', hnow, hrun⟩ := exists_run_past htype hservice hsteady s
  rw [hrun, ← hnow]
  exact ⟨_, (Cache.Results.find?_settle ..).trans (if_pos ⟨rfl, hcacheable⟩), rfl, Nat.le_refl _⟩

theorem execute (h : KeepsUntil (Task.ofQuery c type q true).key ((Task.ofQuery c type q true).outcome result) deadline s)
    (hlive : s.now < deadline) (hdeadline : deadline ≤ s.now + lifetime c type) (other : Query) (ignoreCache : Bool) :
    KeepsUntil (Task.ofQuery c type q true).key ((Task.ofQuery c type q true).outcome result) deadline
      ((execute c other ignoreCache).run world s).2 := by
  by_cases hsame : other = q ∧ ignoreCache = true
  · obtain ⟨rfl, rfl⟩ := hsame
    obtain ⟨e, he, houtcome, hexpires⟩ := of_past htype hservice hsteady hcacheable s
    exact ⟨e, he, houtcome, Nat.le_trans hdeadline hexpires⟩
  · obtain ⟨e, he, houtcome, hexpires⟩ := h
    refine ⟨e, find?_execute_of_live he (Nat.lt_of_lt_of_le hlive hexpires) fun type' htype' => ?_, houtcome, hexpires⟩
    by_contra hboth
    rw [not_or, not_not, Bool.not_eq_false] at hboth
    exact hsame ⟨(Task.query_eq_of_key_eq htype htype' hboth.1).symm, hboth.2⟩

theorem after (h : KeepsUntil (Task.ofQuery c type q true).key ((Task.ofQuery c type q true).outcome result) deadline s)
    (hdeadline : deadline ≤ s.now + lifetime c type) (steps : List Step) (hnow : (after c world steps s).now < deadline) :
    KeepsUntil (Task.ofQuery c type q true).key ((Task.ofQuery c type q true).outcome result) deadline
      (after c world steps s) := by
  induction steps generalizing s with
  | nil => exact h
  | cons step steps ih =>
    have hle : s.now ≤ (step.apply c world s).now := step.now_le s
    have hlive : (step.apply c world s).now < deadline := Nat.lt_of_le_of_lt (now_le_after steps _) hnow
    refine ih ?_ (Nat.le_trans hdeadline (Nat.add_le_add_right hle _)) hnow
    cases step with
    | execute other ignoreCache =>
      exact h.execute htype hservice hsteady hcacheable (Nat.lt_of_le_of_lt hle hlive) hdeadline other ignoreCache
    | advance milliseconds => exact h

end KeepsUntil

/-- A query whose resolution always comes to the same is answered alike, without asking, from the time that it was resolved past the
cache until its lifetime is over, whatever is executed in between. -/
theorem replays_of_comesTo (s : State) (steps : List Step) :
    let past := (execute c q true).run world s
    let later := after c world steps past.2
    let again := (execute c q false).run world later
    later.now < past.2.now + lifetime c type → again.1 = past.1 ∧ again.2.requests = later.requests := by
  intro past later again hnow
  let t := Task.ofQuery c type q true
  have hpast : past.1 = some (t.deliver missing (t.outcome result)) := by
    obtain ⟨s', -, hrun⟩ := exists_run_past htype hservice hsteady s
    exact congrArg Prod.fst hrun
  have hclock : past.2.now = s.now := Plan.now_run _ _
  have hkept : KeepsUntil t.key (t.outcome result) (past.2.now + lifetime c type) past.2 :=
    hclock ▸ KeepsUntil.of_past htype hservice hsteady hcacheable s
  obtain ⟨e, he, houtcome, hexpires⟩ := hkept.after htype hservice hsteady hcacheable (Nat.le_refl _) steps hnow
  have hsame : (Task.ofQuery c type q false).service c = .resolve r missing :=
    (Task.service_withIgnoreCache c t false).trans hservice
  have hserved : again = _ := congrArg (fun plan => plan.run world later) (execute_known c htype false)
  rw [hserved, hpast, ← houtcome]
  exact run_serve_of_live hsame rfl he (Nat.lt_of_lt_of_le hnow hexpires)

end Steady

end AssetGraph.Resolve

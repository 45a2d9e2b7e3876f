import AssetGraph.Proofs.Resolve.Service

/-!
# Searching for a network

A search for a network looks among the remembered allocations first. When none is around the target, the registry is
asked, and an allocation whose ends can be read is remembered for the network that covers it.
-/
namespace AssetGraph.Resolve

theorem Resolution.run_pure {α : Type} (a : α) : (pure a : Resolution α).run = .done (.ok a) := rfl

theorem Resolution.run_lift {α : Type} (p : Plan α) :
    (liftM p : Resolution α).run = p.bind fun a => .done (.ok a) := rfl

theorem askRegistry_eq (r : Rdap.Request) :
    (askRegistry r).run = .ask (.rdap r) fun
      | .ok response => .done (.ok response)
      | .error e => .done (.error (.registry e)) := by
  refine congrArg (Plan.ask (.rdap r)) (funext fun answer => ?_)
  cases answer <;> rfl

theorem askNameServer_eq (name : String) (type : Dns.RecordType) :
    (askNameServer name type).run = .ask (.dns ⟨name, type⟩) fun
      | .ok records => .done (.ok records)
      | .error e => .done (.error (.nameServer e)) := by
  refine congrArg (Plan.ask (.dns ⟨name, type⟩)) (funext fun answer => ?_)
  cases answer <;> rfl

theorem Resolution.run_bind {α β : Type} (x : Resolution α) (f : α → Resolution β) :
    (x >>= f).run = x.run.bind fun
      | .ok a => (f a).run
      | .error c => .done (.error c) := by
  refine congrArg x.run.bind (funext fun result => ?_)
  cases result <;> rfl

theorem Resolution.run_map {α β : Type} (f : α → β) (x : Resolution α) :
    (f <$> x).run = x.run.bind fun result => .done (result.map f) := by
  refine congrArg x.run.bind (funext fun result => ?_)
  cases result <;> rfl

theorem Resolution.exists_of_run_bind {α β : Type} {world : World} {s s' : State} {x : Resolution α} {f : α → Resolution β}
    {b : β} (h : (x >>= f).run.run world s = (some (.ok b), s')) :
    ∃ a s₁, x.run.run world s = (some (.ok a), s₁) ∧ (f a).run.run world s₁ = (some (.ok b), s') := by
  rw [Resolution.run_bind, Plan.run_bind] at h
  rcases hx : x.run.run world s with ⟨_ | _ | a, s₁⟩
  · rw [hx] at h
    cases h
  · rw [hx] at h
    cases h
  · rw [hx] at h
    exact ⟨a, s₁, rfl, h⟩

namespace IpNetworks

open Rdap

variable {world : World} {t : Task} {target : Target} {s : State}

namespace Target

def isV4 : Target → Bool
  | address a => a.unmap.isV4
  | network n => n.isV4

def isWithin : Target → Network → Bool
  | address a, n => n.contains a.unmap
  | network m, n => n.containsNetwork m

def around? (target : Target) (s : State) : Option (Cache.Range IpNetwork) :=
  s.ranges.winner? s.now target.isV4 target.isWithin

def afterSearch (target : Target) (s : State) : State :=
  { s with ranges := (s.ranges.search s.now target.isV4 target.isWithin).2 }

theorem run_find (target : Target) (s : State) :
    target.find.run world s = (some ((target.around? s).map Cache.Range.value), target.afterSearch s) := by
  cases target <;> rfl

theorem events_find (target : Target) (s : State) :
    target.find.events world s = [.searched ((target.around? s).map Cache.Range.network)] := by
  cases target <;> rfl

end Target

def request (text : String) : Rdap.Request := ⟨.ipNetwork, text, none⟩

/-- The allocation that an answer reports, with the network that covers it. -/
def allocationOf (text : String) (answer : Except ClientError Response) : Except Cause (IpNetwork × Network) :=
  match answer with
  | .error e => .error (.registry e)
  | .ok response =>
    match response.object with
    | none => .error (.nothingFound "IP Network" text)
    | some (.ipNetwork n) =>
      match Network.covering n.startAddress n.endAddress with
      | .error e => .error (.badRange e)
      | .ok covering => .ok (n, covering)
    | some o => .error (.otherClass "ip network" o.className)

theorem object_of_allocationOf {text : String} {answer : Except ClientError Response} {n : IpNetwork}
    {covering : Network} (h : allocationOf text answer = .ok (n, covering)) :
    ∃ response, answer = .ok response ∧ response.object = some (.ipNetwork n) ∧
      Network.covering n.startAddress n.endAddress = .ok covering := by
  cases answer with
  | error e => cases h
  | ok response =>
    obtain ⟨object, urls⟩ := response
    cases object with
    | none => cases h
    | some o =>
      cases o with
      | ipNetwork m =>
        simp only [allocationOf] at h
        cases hcovering : Network.covering m.startAddress m.endAddress with
        | error e =>
          rw [hcovering] at h
          cases h
        | ok covering =>
          rw [hcovering] at h
          cases h
          exact ⟨_, rfl, rfl, hcovering⟩
      | domain d => cases h
      | entity e => cases h
      | nameserver n => cases h
      | autnum a => cases h

theorem allocationOf_of_object {text : String} {response : Response} {n : IpNetwork} {covering : Network}
    (ho : response.object = some (.ipNetwork n))
    (hcovering : Network.covering n.startAddress n.endAddress = .ok covering) :
    allocationOf text (.ok response) = .ok (n, covering) := by
  simp only [allocationOf, ho, hcovering]

def itemOf (t : Task) (n : IpNetwork) : Item := t.item "handle" n.attributes n.edges

def resultOf (t : Task) (answer : Except ClientError Response) : Except Cause (List Item) :=
  (allocationOf t.text answer).map fun found => [itemOf t found.1]

def accept (t : Task) (answer : Except ClientError Response) : Plan (Except Cause IpNetwork) :=
  match allocationOf t.text answer with
  | .error c => .done (.error c)
  | .ok (n, covering) => .remember covering n t.ttl (.done (.ok n))

theorem fetch_eq (t : Task) : (fetch t).run = .ask (.rdap (request t.text)) (accept t) := by
  unfold fetch
  rw [Resolution.run_bind, askRegistry_eq]
  refine congrArg (Plan.ask (.rdap (request t.text))) (funext fun answer => ?_)
  cases answer with
  | error e => rfl
  | ok response =>
    simp only [Plan.bind, Resolution.run_bind, accept, allocationOf, objectOf]
    obtain ⟨object, urls⟩ := response
    cases object with
    | none => rfl
    | some o =>
      cases o with
      | ipNetwork n =>
        simp only [Resolution.run_pure, Plan.bind]
        cases Network.covering n.startAddress n.endAddress <;> rfl
      | _ => rfl

theorem resolve_malformed (h : Target.parse? t.text = none) :
    (resolve t).run = .done (.error (.notARange t.text)) := by
  simp only [resolve, h]
  rfl

theorem resolve_eq (h : Target.parse? t.text = some target) :
    (resolve t).run = target.find.bind fun
      | some n => .done (.ok [itemOf t n])
      | none => .ask (.rdap (request t.text)) fun answer => (accept t answer).bind fun
        | .ok n => .done (.ok [itemOf t n])
        | .error c => .done (.error c) := by
  have hfetch : (fetch t >>= fun n => pure [itemOf t n]).run =
      .ask (.rdap (request t.text)) fun answer => (accept t answer).bind fun
        | .ok n => .done (.ok [itemOf t n])
        | .error c => .done (.error c) := by
    rw [Resolution.run_bind, fetch_eq]
    simp only [Plan.bind, Resolution.run_pure]
    congr! 4 with answer result
    cases result <;> rfl
  simp only [resolve, h]
  rw [Resolution.run_bind, Resolution.run_lift, Plan.bind_assoc]
  congr 1
  funext found
  cases found with
  | none => exact hfetch
  | some n => rfl

def afterAnswer (t : Task) (answer : Except ClientError Response) (s : State) : State :=
  let asked := { s with requests := s.requests ++ [.rdap (request t.text)] }
  match allocationOf t.text answer with
  | .error _ => asked
  | .ok (n, covering) => { asked with ranges := asked.ranges.store asked.now covering n t.ttl }

theorem run_resolve_malformed (h : Target.parse? t.text = none) (s : State) :
    (resolve t).run.run world s = (some (.error (.notARange t.text)), s) := by
  rw [resolve_malformed h]
  rfl

theorem events_resolve_malformed (h : Target.parse? t.text = none) (s : State) :
    (resolve t).run.events world s = [] := by
  rw [resolve_malformed h]
  rfl

theorem run_resolve_found {r : Cache.Range IpNetwork} (h : Target.parse? t.text = some target)
    (hr : target.around? s = some r) :
    (resolve t).run.run world s = (some (.ok [itemOf t r.value]), target.afterSearch s) := by
  rw [resolve_eq h, Plan.run_bind, Target.run_find, hr]
  rfl

theorem events_resolve_found {r : Cache.Range IpNetwork} (h : Target.parse? t.text = some target)
    (hr : target.around? s = some r) :
    (resolve t).run.events world s = [.searched (some r.network)] := by
  rw [resolve_eq h, Plan.events_bind, Target.run_find, Target.events_find, hr]
  rfl

theorem run_resolve_answered {answer : Except ClientError Response} (h : Target.parse? t.text = some target)
    (hr : target.around? s = none) (ha : world s.requests (.rdap (request t.text)) = some answer) :
    (resolve t).run.run world s =
      (some (resultOf t answer), afterAnswer t answer (target.afterSearch s)) := by
  have hasked : world (target.afterSearch s).requests (.rdap (request t.text)) = some answer := ha
  rw [resolve_eq h, Plan.run_bind, Target.run_find, hr]
  simp only [Option.map_none, Plan.run, hasked, Plan.run_bind, accept, resultOf, afterAnswer]
  cases allocationOf t.text answer <;> rfl

theorem events_resolve_answered {answer : Except ClientError Response} (h : Target.parse? t.text = some target)
    (hr : target.around? s = none) (ha : world s.requests (.rdap (request t.text)) = some answer) :
    (resolve t).run.events world s =
      [.searched none, .asked (.rdap (request t.text))] ++
        match allocationOf t.text answer with
        | .error _ => []
        | .ok (_, covering) => [.remembered covering] := by
  have hasked : world (target.afterSearch s).requests (.rdap (request t.text)) = some answer := ha
  rw [resolve_eq h, Plan.events_bind, Target.run_find, Target.events_find, hr]
  simp only [Option.map_none, Plan.events, hasked, Plan.events_bind, accept]
  cases allocationOf t.text answer <;> rfl

theorem run_resolve_unanswered (h : Target.parse? t.text = some target) (hr : target.around? s = none)
    (ha : world s.requests (.rdap (request t.text)) = none) :
    (resolve t).run.run world s =
      (none, { target.afterSearch s with requests := s.requests ++ [.rdap (request t.text)] }) := by
  have hasked : world (target.afterSearch s).requests (.rdap (request t.text)) = none := ha
  rw [resolve_eq h, Plan.run_bind, Target.run_find, hr]
  simp only [Option.map_none, Plan.run, hasked]
  rfl

theorem events_resolve_unanswered (h : Target.parse? t.text = some target) (hr : target.around? s = none)
    (ha : world s.requests (.rdap (request t.text)) = none) :
    (resolve t).run.events world s = [.searched none, .asked (.rdap (request t.text))] := by
  have hasked : world (target.afterSearch s).requests (.rdap (request t.text)) = none := ha
  rw [resolve_eq h, Plan.events_bind, Target.run_find, Target.events_find, hr]
  simp only [Option.map_none, Plan.events, hasked]
  rfl

/-- The four ways in which a search can go. -/
theorem resolve_cases (world : World) (t : Task) (s : State) :
    (Target.parse? t.text = none ∧ (resolve t).run.run world s = (some (.error (.notARange t.text)), s) ∧
      (resolve t).run.events world s = []) ∨
    (∃ target range, Target.parse? t.text = some target ∧ target.around? s = some range ∧
      (resolve t).run.run world s = (some (.ok [itemOf t range.value]), target.afterSearch s) ∧
      (resolve t).run.events world s = [.searched (some range.network)]) ∨
    (∃ target, Target.parse? t.text = some target ∧ target.around? s = none ∧
      (resolve t).run.run world s =
        (none, { target.afterSearch s with requests := s.requests ++ [.rdap (request t.text)] }) ∧
      (resolve t).run.events world s = [.searched none, .asked (.rdap (request t.text))]) ∨
    ∃ target answer, Target.parse? t.text = some target ∧ target.around? s = none ∧
      world s.requests (.rdap (request t.text)) = some answer ∧
      (resolve t).run.run world s = (some (resultOf t answer), afterAnswer t answer (target.afterSearch s)) ∧
      (resolve t).run.events world s = [.searched none, .asked (.rdap (request t.text))] ++
        match allocationOf t.text answer with
        | .error _ => []
        | .ok (_, covering) => [.remembered covering] := by
  cases h : Target.parse? t.text with
  | none => exact .inl ⟨rfl, run_resolve_malformed h s, events_resolve_malformed h s⟩
  | some target =>
    right
    cases hr : target.around? s with
    | some range => exact .inl ⟨target, range, rfl, hr, run_resolve_found h hr, events_resolve_found h hr⟩
    | none =>
      right
      cases ha : world s.requests (.rdap (request t.text)) with
      | none =>
        exact .inl ⟨target, rfl, hr, run_resolve_unanswered h hr ha, events_resolve_unanswered h hr ha⟩
      | some answer =>
        exact .inr ⟨target, answer, rfl, hr, rfl, run_resolve_answered h hr ha, events_resolve_answered h hr ha⟩

theorem results_run_resolve (world : World) (t : Task) (s : State) :
    ((resolve t).run.run world s).2.results = s.results := by
  rcases resolve_cases world t s with ⟨-, hrun, -⟩ | ⟨target, range, -, -, hrun, -⟩ | ⟨target, -, -, hrun, -⟩ |
    ⟨target, answer, -, -, -, hrun, -⟩
  · rw [hrun]
  · rw [hrun]
    rfl
  · rw [hrun]
    rfl
  · rw [hrun]
    simp only [afterAnswer]
    split <;> rfl

theorem mem_family_run_resolve {isV4 : Bool} {r : Cache.Range IpNetwork}
    (h : r ∈ ((resolve t).run.run world s).2.ranges.family isV4) :
    r ∈ s.ranges.family isV4 ∨
      ∃ answer, world s.requests (.rdap (request t.text)) = some answer ∧
        allocationOf t.text answer = .ok (r.value, r.network) ∧ r.network.isV4 = isV4 := by
  rcases resolve_cases world t s with ⟨-, hrun, -⟩ | ⟨target, range, -, -, hrun, -⟩ | ⟨target, -, -, hrun, -⟩ |
    ⟨target, answer, -, -, ha, hrun, -⟩
  · rw [hrun] at h
    exact .inl h
  · rw [hrun] at h
    exact .inl (Cache.Ranges.mem_of_mem_search h)
  · rw [hrun] at h
    exact .inl (Cache.Ranges.mem_of_mem_search h)
  · rw [hrun] at h
    simp only [afterAnswer] at h
    split at h
    · exact .inl (Cache.Ranges.mem_of_mem_search h)
    · rename_i n covering hallocation
      rcases Cache.Ranges.mem_of_mem_store h with ⟨hold, -⟩ | ⟨hfamily, rfl⟩
      · exact .inl (Cache.Ranges.mem_of_mem_search hold)
      · exact .inr ⟨answer, ha, hallocation, hfamily.symm⟩

theorem mem_events_resolve {e : Event} (he : e ∈ (resolve t).run.events world s) :
    (∃ found, e = .searched found) ∨ (∃ r, e = .asked r) ∨ ∃ n, e = .remembered n := by
  rcases resolve_cases world t s with ⟨-, -, hevents⟩ | ⟨target, range, -, -, -, hevents⟩ |
    ⟨target, -, -, -, hevents⟩ | ⟨target, answer, -, -, -, -, hevents⟩
  · rw [hevents] at he
    cases he
  · rw [hevents, List.mem_singleton] at he
    exact .inl ⟨_, he⟩
  · rw [hevents, List.mem_cons, List.mem_singleton] at he
    exact he.imp (fun h => ⟨_, h⟩) fun h => .inl ⟨_, h⟩
  · rw [hevents, List.mem_append, List.mem_cons, List.mem_singleton] at he
    rcases he with (hsearched | hasked) | hremembered
    · exact .inl ⟨_, hsearched⟩
    · exact .inr (.inl ⟨_, hasked⟩)
    · split at hremembered
      · cases hremembered
      · exact .inr (.inr ⟨_, List.mem_singleton.mp hremembered⟩)

theorem found_of_searched {n : Network} (h : Event.searched (some n) ∈ (resolve t).run.events world s) :
    ∃ target range, Target.parse? t.text = some target ∧ target.around? s = some range ∧ range.network = n := by
  rcases resolve_cases world t s with ⟨-, -, hevents⟩ | ⟨target, range, hparse, hr, -, hevents⟩ |
    ⟨target, -, -, -, hevents⟩ | ⟨target, answer, -, -, -, -, hevents⟩
  · simp [hevents] at h
  · simp only [hevents, List.mem_singleton, Event.searched.injEq, Option.some.injEq] at h
    exact ⟨target, range, hparse, hr, h.symm⟩
  · simp [hevents] at h
  · rw [hevents] at h
    cases hallocation : allocationOf t.text answer <;> simp [hallocation] at h

/-- A search remembers the allocation that the registry reports to it, and then succeeds. -/
theorem run_of_remembered {n : Network} (h : Event.remembered n ∈ (resolve t).run.events world s) :
    ∃ (target : Target) (answer : Except ClientError Response) (allocation : IpNetwork),
      world s.requests (.rdap (request t.text)) = some answer ∧ allocationOf t.text answer = .ok (allocation, n) ∧
      Event.asked (.rdap (request t.text)) ∈ (resolve t).run.events world s ∧
      ((resolve t).run.run world s).1 = some (.ok [itemOf t allocation]) ∧
      ((resolve t).run.run world s).2.ranges =
        (target.afterSearch s).ranges.store s.now n allocation t.ttl := by
  rcases resolve_cases world t s with ⟨-, -, hevents⟩ | ⟨target, range, -, -, -, hevents⟩ |
    ⟨target, -, -, -, hevents⟩ | ⟨target, answer, -, -, ha, hrun, hevents⟩
  · simp [hevents] at h
  · simp [hevents] at h
  · simp [hevents] at h
  · rw [hevents] at h
    cases hallocation : allocationOf t.text answer with
    | error e => simp [hallocation] at h
    | ok found =>
      obtain ⟨allocation, covering⟩ := found
      simp [hallocation] at h
      subst h
      refine ⟨target, answer, allocation, ha, hallocation, ?_, ?_, ?_⟩
      · simp [hevents]
      · rw [hrun]
        simp only [resultOf, hallocation]
        rfl
      · rw [hrun]
        simp only [afterAnswer, hallocation]
        rfl

theorem remembered_of_asked {answer : Except ClientError Response} {allocation : IpNetwork} {n : Network}
    {r : Request} (h : Event.asked r ∈ (resolve t).run.events world s)
    (ha : world s.requests (.rdap (request t.text)) = some answer)
    (hallocation : allocationOf t.text answer = .ok (allocation, n)) :
    Event.remembered n ∈ (resolve t).run.events world s := by
  rcases resolve_cases world t s with ⟨-, -, hevents⟩ | ⟨target, range, -, -, -, hevents⟩ |
    ⟨target, hparse, hr, hrun, hevents⟩ | ⟨target, answer', -, -, ha', hrun, hevents⟩
  · simp [hevents] at h
  · simp [hevents] at h
  · rw [run_resolve_answered hparse hr ha] at hrun
    cases hrun
  · rw [ha] at ha'
    cases ha'
    simp [hevents, hallocation]

theorem evaluate_resolve {client : Client} (h : Target.parse? t.text = some target) :
    (resolve t).run.evaluate client = resultOf t (client (.rdap (request t.text))) := by
  rw [resolve_eq h, Plan.evaluate_bind]
  have hfind : target.find.evaluate client = none := by
    cases target <;> rfl
  simp only [hfind, Plan.evaluate, Plan.evaluate_bind, accept, resultOf]
  cases allocationOf t.text (client (.rdap (request t.text))) <;> rfl

end IpNetworks
end AssetGraph.Resolve

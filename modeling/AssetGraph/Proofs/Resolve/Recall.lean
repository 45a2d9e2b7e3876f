import AssetGraph.Proofs.Cache.Unexpired
import AssetGraph.Proofs.Resolve.History

/-!
# Types that are only recalled

A network or a nameserver is got from the kept outcomes alone, under the identity of that query. What a search finds is
kept under the identity of the search, with its own method and text, so in every history nothing is there to be got.
-/
namespace AssetGraph.Resolve

variable {c : Config} {world : World} {t : Task} {q : Query} {s : State} {type : ItemType} {things : String}
  {m : Cause} {o : Outcome} {ignoreCache : Bool}

namespace Task

theorem recalled?_eq_some_iff :
    t.recalled? s = some o ↔
      t.ignoreCache = false ∧ ∃ e, s.results.unexpired? s.now t.key = some e ∧ e.outcome = o := by
  simp only [recalled?, Cache.Results.lookup_eq_some_iff, Cache.Results.unexpired?_eq_some_iff, and_assoc]

/-- Recalling gives the first item of a kept success, and nothing else. -/
theorem run_serve_replay_iff (t : Task) (m : Cause) (s : State) (item : Item) :
    ((t.serve (.replay m)).run world s).1 = some (.ok [item]) ↔
      ∃ rest, t.recalled? s = some (.ok (item :: rest)) := by
  rw [run_serve_replay]
  cases t.recalled? s with
  | none => simp
  | some o =>
    cases o with
    | error e => simp [deliver, Outcome.single, Outcome.ofItem]
    | ok items => cases items <;> simp [deliver, Outcome.single, Outcome.ofItem]

theorem service_get (hthings : (t.type, things) ∈ [(ItemType.ipNetwork, "IP networks"), (.nameserver, "Nameservers")])
    (hmethod : t.method = .get) (hscope : t.scope = globalScope) : t.service c = .replay (.cannotGet things) := by
  obtain ⟨type, method, scope, text, ignoreCache, ttl⟩ := t
  dsimp only at hthings hmethod hscope
  subst hmethod hscope
  simp only [List.mem_cons, Prod.mk.injEq, List.not_mem_nil, or_false] at hthings
  rcases hthings with ⟨rfl, rfl⟩ | ⟨rfl, rfl⟩ <;> rfl

end Task

/-- Getting a network or a nameserver asks nothing, and gives an item exactly when one is kept under the identity of the
query itself. In every history none is kept there: whatever was searched for and found, the answer is that there is
nothing to get. -/
theorem get_replays_iff (htype : ItemType.ofName? q.type = some type)
    (hthings : (type, things) ∈ [(ItemType.ipNetwork, "IP networks"), (.nameserver, "Nameservers")])
    (hmethod : q.method = .get) (hscope : q.scope = globalScope) (s : State) :
    let plan := execute c q ignoreCache
    let key : Identity := ⟨type.source, .get, q.scope, q.type, q.text⟩
    (plan.run world s).2.requests = s.requests ∧
      (∀ item, (plan.run world s).1 = some (.ok [item]) ↔
        ignoreCache = false ∧ ∃ rest expiresAt, s.results.unexpired? s.now key = some ⟨.ok (item :: rest), expiresAt⟩) ∧
      (Reachable c world s → s.results.unexpired? s.now key = none ∧
        (plan.run world s).1 = some (.error ((Cause.cannotGet things).within type q.scope))) := by
  intro plan key
  have hservice : (Task.ofQuery c type q ignoreCache).service c = .replay (.cannotGet things) :=
    Task.service_get hthings hmethod hscope
  have hkey : (Task.ofQuery c type q ignoreCache).key = key := by
    simp only [key, Task.key, Task.ofQuery, hmethod, ItemType.name_of_ofName? htype]
  have hplan : plan = (Task.ofQuery c type q ignoreCache).serve (.replay (.cannotGet things)) := by
    rw [← hservice]
    exact execute_known c htype ignoreCache
  rw [hplan]
  refine ⟨by rw [Task.run_serve_replay]; rfl, fun item => ?_, fun hs => ?_⟩
  · rw [Task.run_serve_replay_iff]
    simp only [Task.recalled?_eq_some_iff, hkey]
    constructor
    · rintro ⟨rest, hwanted, ⟨outcome, expiresAt⟩, hkept, rfl⟩
      exact ⟨hwanted, rest, expiresAt, hkept⟩
    · rintro ⟨hwanted, rest, expiresAt, hkept⟩
      exact ⟨rest, hwanted, _, hkept, rfl⟩
  · have hnone : s.results.find? key = none := hkey ▸ hs.find?_of_replay rfl hservice
    have hrecalled := hs.recalled?_of_replay (t := .ofQuery c type q ignoreCache) rfl hservice
    refine ⟨by rw [Cache.Results.unexpired?, hnone]; rfl, ?_⟩
    rw [Task.run_serve_replay, hrecalled]
    rfl

/-- A nameserver that was just found cannot be got by its name. -/
theorem get_replays_no_nameserver :
    let nameserver : Rdap.Nameserver := { ldhName := "NS1.GOOGLE.COM" }
    let world : World := fun _ r =>
      match r with
      | .rdap _ => some (.ok ⟨some (.nameserver nameserver), []⟩)
      | _ => none
    let search : Query :=
      ⟨"rdap-nameserver", .search, "https://rdap.verisign.com/com/v1/nameserver/NS1.GOOGLE.COM", "global"⟩
    let get : Query := ⟨"rdap-nameserver", .get, "NS1.GOOGLE.COM", "global"⟩
    let s := after {} world [.execute search false] {}
    s.results.size = 1 ∧ ((execute {} get false).run world s).2.requests = s.requests ∧
      ((execute {} get false).run world s).1 =
        some (.error ((Cause.cannotGet "Nameservers").within .nameserver "global")) := by
  intro nameserver world search get s
  have hs : Reachable {} world s := (Reachable.fresh 0).after _
  obtain ⟨hrequests, -, hnone⟩ :=
    get_replays_iff (q := get) (by decide) (List.mem_cons_of_mem _ List.mem_cons_self) rfl rfl s
  exact ⟨by decide +kernel, hrequests, (hnone hs).2⟩

/-- A network that was just found cannot be got by the handle that it was found with. -/
theorem get_misses_found_network :
    let allocation : Rdap.IpNetwork :=
      { handle := some "NET-1", startAddress := "1.1.1.0", endAddress := "1.1.1.255" }
    let world := (Client.ofAllocation allocation).world
    let search : Query := ⟨"rdap-ip-network", .search, "1.1.1.1", "global"⟩
    let get : Query := ⟨"rdap-ip-network", .get, "NET-1", "global"⟩
    let s := after {} world [.execute search false] {}
    Reachable {} world s ∧ s.now < 0 + lifetime {} .ipNetwork ∧
      ∃ item, ((execute {} search false).run world {}).1 = some (.ok [item]) ∧ item.uniqueValue? = some get.text ∧
        ((execute {} get false).run world s).1 ≠ some (.ok [item]) := by
  intro allocation world search get s
  have hs : Reachable {} world s := (Reachable.fresh 0).after _
  have hfound : ((execute {} search false).run world {}).1.map (fun o => o.toOption.map (List.map Item.uniqueValue?)) =
      some (some [some "NET-1"]) := by
    decide +kernel
  have hmissed : ((execute {} get false).run world s).1.map Except.isOk = some false := by decide +kernel
  refine ⟨hs, by decide +kernel, ?_⟩
  obtain ⟨o, ho, hitems⟩ := Option.map_eq_some_iff.mp hfound
  cases o with
  | error e => cases hitems
  | ok items =>
    simp only [Except.toOption, Option.map_some, Option.some.injEq] at hitems
    obtain ⟨item, rfl, hvalue⟩ := List.map_eq_singleton_iff.mp hitems
    refine ⟨item, ho, hvalue, fun hgot => ?_⟩
    rw [hgot] at hmissed
    cases hmissed

end AssetGraph.Resolve

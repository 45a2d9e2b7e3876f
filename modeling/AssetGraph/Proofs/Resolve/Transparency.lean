import AssetGraph.Proofs.Resolve.History

/-!
# Caches do not change answers

Against a client that gives each request one answer, and the same allocation for everything inside its network, a query
comes to the same in every state that a history can lead to as it does with empty caches.
-/
namespace AssetGraph.Resolve

open IpNetworks

/-- A client that reports an allocation reports it for every address and network inside the network that covers it. -/
def RangeConsistent (client : Client) : Prop :=
  ∀ text response n covering, client (.rdap ⟨.ipNetwork, text, none⟩) = .ok response →
    response.object = some (.ipNetwork n) → Network.covering n.startAddress n.endAddress = .ok covering →
      ∀ other, ((∃ a, Address.parse? other = some a ∧ covering.contains a) ∨
          ∃ m, Network.parse other = .ok m ∧ covering.containsNetwork m) →
        ∃ response', client (.rdap ⟨.ipNetwork, other, none⟩) = .ok response' ∧
          response'.object = some (.ipNetwork n)

/-- Whatever the caches hold, the client would say now. -/
structure Agrees (c : Config) (client : Client) (s : State) : Prop where
  entries : ∀ key e, s.results.find? key = some e →
    ∃ t r missing, Task.key t = key ∧ t.ttl = lifetime c t.type ∧ t.service c = .resolve r missing ∧
      e.outcome = t.outcome (r.run.evaluate client)
  ranges : ∀ isV4, ∀ range ∈ s.ranges.family isV4,
    ∃ text, allocationOf text (client (.rdap (request text))) = .ok (range.value, range.network)

variable {c : Config} {client : Client} {t : Task} {q : Query} {s : State} {r : Resolution (List Item)}
  {missing : Option Cause} {ignoreCache : Bool}

theorem RangeConsistent.allocationOf_eq (hclient : RangeConsistent client) {text other : String} {n : Rdap.IpNetwork}
    {covering : Network} (h : allocationOf text (client (.rdap (request text))) = .ok (n, covering))
    {target : Target} (hparse : Target.parse? other = some target) (hwithin : target.isWithin covering = true) :
    allocationOf other (client (.rdap (request other))) = .ok (n, covering) := by
  obtain ⟨response, hresponse, ho, hcovering⟩ := object_of_allocationOf h
  have hinside : (∃ a, Address.parse? other = some a ∧ covering.contains a) ∨
      ∃ m, Network.parse other = .ok m ∧ covering.containsNetwork m := by
    unfold Target.parse? at hparse
    split at hparse
    · rename_i a ha
      cases hparse
      exact .inl ⟨a, ha, by simpa [Target.isWithin] using hwithin⟩
    · split at hparse
      · rename_i m hm
        cases hparse
        exact .inr ⟨m, hm, hwithin⟩
      · cases hparse
  obtain ⟨response', hresponse', ho'⟩ := hclient text response n covering hresponse ho hcovering other hinside
  have hanswer : client (.rdap (request other)) = .ok response' := hresponse'
  rw [hanswer]
  exact allocationOf_of_object ho' hcovering

theorem rangeConsistent_ofAllocation (n : Rdap.IpNetwork) : RangeConsistent (.ofAllocation n) := by
  intro text response m covering hresponse ho hcovering other hinside
  cases hresponse
  exact ⟨_, rfl, ho⟩

namespace Agrees

theorem fresh (c : Config) (client : Client) (now : Nat) : Agrees c client { now } where
  entries := by
    intro key e he
    cases he
  ranges := by
    intro isV4 range hrange
    cases isV4 <;> cases hrange

/-- A search gives what the client would say, whether or not a remembered allocation answers it. -/
theorem run_fst_resolve (h : Agrees c client s) (hclient : RangeConsistent client) (t : Task) :
    ((resolve t).run.run client.world s).1 = some ((resolve t).run.evaluate client) := by
  cases hparse : Target.parse? t.text with
  | none =>
    rw [run_resolve_malformed hparse, resolve_malformed hparse]
    rfl
  | some target =>
    rw [evaluate_resolve hparse]
    cases hr : target.around? s with
    | none => rw [run_resolve_answered hparse hr rfl]
    | some range =>
      obtain ⟨hmem, -, hwithin⟩ := Cache.Ranges.winner?_spec hr
      obtain ⟨text, htext⟩ := h.ranges _ range hmem
      have hresult : resultOf t (client (.rdap (request t.text))) = .ok [itemOf t range.value] := by
        simp only [resultOf, hclient.allocationOf_eq htext hparse hwithin]
        rfl
      rw [run_resolve_found hparse hr, hresult]

theorem run_fst_of_service (h : Agrees c client s) (hclient : RangeConsistent client)
    (hservice : t.service c = .resolve r missing) :
    (r.run.run client.world s).1 = some (r.run.evaluate client) := by
  rcases Task.asksOnly_of_service hservice with hr | ⟨-, -, rfl, -⟩
  · exact hr.run_fst s
  · exact h.run_fst_resolve hclient t

theorem afterLookup (h : Agrees c client s) (t : Task) : Agrees c client (t.afterLookup s) where
  entries key e he := h.entries key e (Cache.Results.find?_of_find?_lookup he)
  ranges := h.ranges

theorem execute (h : Agrees c client s) (hclient : RangeConsistent client) (q : Query) (ignoreCache : Bool) :
    Agrees c client ((execute c q ignoreCache).run client.world s).2 where
  entries := by
    intro key e he
    rcases find?_execute he with hold | ⟨type, r, missing, result, -, hservice, hkey, hrun, rfl⟩
    · exact h.entries key e hold
    · have hresult := (h.afterLookup (.ofQuery c type q ignoreCache)).run_fst_of_service hclient hservice
      rw [hrun] at hresult
      cases hresult
      exact ⟨_, r, missing, hkey.symm, rfl, hservice, rfl⟩
  ranges := by
    intro isV4 range hrange
    rcases mem_family_execute hrange with hold | ⟨answer, hanswer, hallocation, -⟩
    · exact h.ranges isV4 range hold
    · cases hanswer
      exact ⟨q.text, hallocation⟩

theorem of_reachable (hclient : RangeConsistent client) (h : Reachable c client.world s) : Agrees c client s := by
  induction h with
  | fresh now => exact fresh c client now
  | step _ e ih =>
    cases e with
    | execute q ignoreCache => exact ih.execute hclient q ignoreCache
    | advance milliseconds => exact ⟨ih.entries, ih.ranges⟩

end Agrees

theorem Task.evaluate_serve (t : Task) (service : Service) :
    (t.serve service).evaluate client = match service with
      | .answer outcome => outcome
      | .replay m => .error (t.failure m)
      | .resolve r missing => t.deliver missing (t.outcome (r.run.evaluate client)) := by
  cases service with
  | answer outcome => rfl
  | replay m => rfl
  | resolve r missing =>
    simp only [serve, cached, Plan.bind, Plan.evaluate, Bind.bind, Plan.evaluate_bind]

theorem Task.run_fst_serve (hclient : RangeConsistent client) (h : Reachable c client.world s)
    (ht : t.ttl = lifetime c t.type) :
    ((t.serve (t.service c)).run client.world s).1 = some ((t.serve (t.service c)).evaluate client) := by
  have hagrees := Agrees.of_reachable hclient h
  rw [Task.evaluate_serve]
  rcases serve_cases c client.world t s with ⟨o, hservice, hserve, -⟩ | ⟨m, hservice, hserve, -⟩ |
    ⟨r, missing, o, hservice, hrecalled, hserve, -⟩ | ⟨r, missing, s', hservice, -, hrun, -, -, -⟩ |
    ⟨r, missing, result, s', hservice, -, hrun, -, -, hserve, -⟩
  · rw [hserve, hservice]
  · rw [hserve, hservice, h.recalled?_of_replay ht hservice]
    rfl
  · obtain ⟨-, e, he, -, rfl⟩ := Cache.Results.lookup_eq_some_iff.mp hrecalled
    obtain ⟨u, r', missing', hkey, hu, hservice', houtcome⟩ := hagrees.entries _ e he
    rw [service_eq_of_key_eq hkey hu ht, hservice] at hservice'
    cases hservice'
    rw [hserve, hservice, houtcome, outcome_eq_of_key_eq hkey]
  · have hresult := (hagrees.afterLookup t).run_fst_of_service hclient hservice
    rw [hrun] at hresult
    cases hresult
  · have hresult := (hagrees.afterLookup t).run_fst_of_service hclient hservice
    rw [hrun] at hresult
    cases hresult
    rw [hserve, hservice]

theorem run_fst_execute (hclient : RangeConsistent client) (h : Reachable c client.world s) (q : Query)
    (ignoreCache : Bool) :
    ((execute c q ignoreCache).run client.world s).1 = some ((execute c q false).evaluate client) := by
  cases htype : ItemType.ofName? q.type with
  | none =>
    obtain ⟨o, ho⟩ := execute_unknown c htype
    rw [ho, ho]
    rfl
  | some type =>
    have hservice : Task.service c (.ofQuery c type q ignoreCache) = Task.service c (.ofQuery c type q false) :=
      Task.service_withIgnoreCache c (.ofQuery c type q false) ignoreCache
    rw [execute_known c htype, execute_known c htype, Task.run_fst_serve hclient h rfl, Task.evaluate_serve,
      Task.evaluate_serve, hservice]
    rfl

/-- The caches never show: a query comes to the same after any history as at any time with empty caches. -/
theorem cache_transparent (hclient : RangeConsistent client) (h : Reachable c client.world s) (q : Query)
    (ignoreCache : Bool) (now : Nat) :
    ∃ o, ((execute c q ignoreCache).run client.world s).1 = some o ∧
      ((execute c q false).run client.world { now }).1 = some o :=
  ⟨_, run_fst_execute hclient h q ignoreCache, run_fst_execute hclient (.fresh now) q false⟩

/-- A remembered allocation answers as the registry would. -/
theorem cache_transparent_in_range :
    let client := Client.ofAllocation { startAddress := "1.1.1.0", endAddress := "1.1.1.255" }
    let s := after {} client.world [.execute ⟨"rdap-ip-network", .search, "1.1.1.1", "global"⟩ false] {}
    let q : Query := ⟨"rdap-ip-network", .search, " 1.1.1.128/25", "global"⟩
    RangeConsistent client ∧ Reachable {} client.world s ∧
      Event.searched (Network.parse "1.1.1.0/24").toOption ∈ (execute {} q false).events client.world s ∧
      ∃ o, ((execute {} q false).run client.world s).1 = some o ∧
        ((execute {} q false).run client.world { now := 7 }).1 = some o := by
  intro client s q
  have hclient : RangeConsistent client := rangeConsistent_ofAllocation _
  have hs : Reachable {} client.world s := (Reachable.fresh 0).after _
  exact ⟨hclient, hs, by decide +kernel, cache_transparent hclient hs q false 7⟩

end AssetGraph.Resolve

import AssetGraph.Proofs.Resolve.Outcomes

/-!
# Blaming the text

A query for a registry object is malformed when it searches by a text that cannot be read, and then nothing is asked. A
search for a network is malformed as well when the registry is asked and reports a range that no network covers.
-/
namespace AssetGraph.Resolve

open Rdap (ClientError Response)

variable {c : Config} {world : World} {t : Task} {q : Query} {s : State} {type : ItemType} {o : Outcome} {m : Cause}
  {r : Resolution (List Item)} {missing : Option Cause} {result : Except Cause (List Item)} {ignoreCache : Bool}

/-- Whether a registry type cannot be searched by a text. A network is searched by an address or a network inside, an
entity and a nameserver by a URL of their own kind. -/
def CannotRead : ItemType → String → Prop
  | .ipNetwork, text => Address.parse? text = none ∧ ∀ n, Network.parse text ≠ .ok n
  | .entity, text => ∀ url, Rdap.Url.parse? text = some url → url.kind ≠ .entity
  | .nameserver, text => ∀ url, Rdap.Url.parse? text = some url → url.kind ≠ .nameserver
  | _, _ => False

/-- Whether a run ends in an error that blames the text. -/
def IsMalformed : Option Outcome → Prop
  | some (.error e) => e.kind = .malformedInput
  | _ => False

instance : DecidablePred IsMalformed
  | some (.error e) => inferInstanceAs (Decidable (e.kind = .malformedInput))
  | some (.ok _) => .isFalse id
  | none => .isFalse id

def Blames : Option (Except Cause (List Item)) → Prop
  | some (.error cause) => cause.kind = .malformedInput
  | _ => False

def ReportsBadRange (answer : Except ClientError Response) : Prop :=
  ∃ response n e, answer = .ok response ∧ response.object = some (.ipNetwork n) ∧
    Network.covering n.startAddress n.endAddress = .error e

theorem not_isMalformed_of_isCacheable (h : o.isCacheable = true) : ¬IsMalformed (some o) := by
  cases o with
  | ok items => exact id
  | error e =>
    intro hkind
    have hmalformed : e.kind = .malformedInput := hkind
    rcases kind_of_isCacheable h with hother | hother <;> rw [hmalformed] at hother <;> cases hother

theorem exists_cause_of_blames {ending : Option (Except Cause (List Item))} (h : Blames ending) :
    ∃ cause, ending = some (.error cause) ∧ cause.kind = .malformedInput := by
  rcases ending with _ | cause | items
  · exact h.elim
  · exact ⟨cause, rfl, h⟩
  · exact h.elim

theorem isMalformed_deliver_iff (hservice : t.service c = .resolve r missing) :
    IsMalformed (some (t.deliver missing (t.outcome result))) ↔ Blames (some result) := by
  cases result with
  | ok items =>
    have hcacheable : (t.deliver missing (t.outcome (.ok items))).isCacheable = true :=
      Task.isCacheable_deliver hservice rfl
    exact iff_of_false (not_isMalformed_of_isCacheable hcacheable) id
  | error cause => cases missing <;> exact Iff.rfl

theorem not_isMalformed_answer (hservice : t.service c = .answer o) (hscope : t.scope = globalScope)
    (hsource : t.type.source = "rdap") : ¬IsMalformed (some o) := by
  have hserved := hservice ▸ Task.servedBy c t
  cases hserved with
  | unserved hunserved => exact absurd hscope hunserved
  | refused _ hblame =>
    intro hkind
    rcases hblame hkind with htype | htype <;> rw [htype] at hsource <;> exact absurd hsource (by decide)
  | nothing => exact id
  | gotAddress => exact id

theorem kind_of_replay (hservice : t.service c = .replay m) : m.kind = .notFound := by
  have hserved := hservice ▸ Task.servedBy c t
  cases hserved
  rfl

theorem isMalformed_serve_iff (h : Reachable c world s) (hservice : t.service c = .resolve r missing) :
    IsMalformed ((t.serve (t.service c)).run world s).1 ↔
      t.recalled? s = none ∧ Blames (r.run.run world (t.afterLookup s)).1 := by
  rw [hservice]
  cases hrecalled : t.recalled? s with
  | some o =>
    have hcacheable := Task.isCacheable_deliver hservice (h.isCacheable_recalled hrecalled)
    rw [Task.run_serve_recalled hrecalled]
    exact iff_of_false (not_isMalformed_of_isCacheable hcacheable) nofun
  | none =>
    rcases hrun : r.run.run world (t.afterLookup s) with ⟨_ | result, s'⟩
    · rw [Task.run_serve_unanswered hrecalled hrun]
      exact iff_of_false id fun hblames => hblames.2
    · rw [Task.run_serve_resolved hrecalled hrun, isMalformed_deliver_iff hservice]
      exact (and_iff_right rfl).symm

theorem requests_serve (hservice : t.service c = .resolve r missing) (world : World) (s : State) :
    ((t.serve (t.service c)).run world s).2.requests =
      if t.recalled? s = none then (r.run.run world (t.afterLookup s)).2.requests else s.requests := by
  rw [hservice]
  cases hrecalled : t.recalled? s with
  | some o =>
    rw [Task.run_serve_recalled hrecalled, if_neg nofun]
    rfl
  | none =>
    rw [if_pos rfl]
    rcases hrun : r.run.run world (t.afterLookup s) with ⟨_ | result, s'⟩
    · rw [Task.run_serve_unanswered hrecalled hrun]
    · rw [Task.run_serve_resolved hrecalled hrun]
      rfl

theorem requests_serve_of_asking {request : Request} (hservice : t.service c = .resolve r missing)
    (hasking : ∀ s, (r.run.run world s).2.requests = s.requests ++ [request]) :
    ((t.serve (t.service c)).run world s).2.requests =
      s.requests ++ if t.recalled? s = none then [request] else [] := by
  rw [requests_serve hservice, hasking]
  split
  · rfl
  · exact (List.append_nil s.requests).symm

namespace IpNetworks

theorem parse?_eq_none_iff {text : String} : Target.parse? text = none ↔ CannotRead .ipNetwork text := by
  change Target.parse? text = none ↔ Address.parse? text = none ∧ ∀ n, Network.parse text ≠ .ok n
  unfold Target.parse?
  cases Address.parse? text with
  | some a => exact iff_of_false nofun fun h => nomatch h.1
  | none =>
    cases Network.parse text with
    | ok n => exact iff_of_false nofun fun h => h.2 n rfl
    | error e => exact iff_of_true rfl ⟨rfl, nofun⟩

/-- An answer of the registry blames the text only by its range. -/
theorem blames_resultOf_iff (answer : Except ClientError Response) :
    Blames (some (resultOf t answer)) ↔ ReportsBadRange answer := by
  constructor
  · intro hblames
    cases answer with
    | error e =>
      have hkind : (Cause.registry e).kind = .malformedInput := hblames
      simp only [Cause.kind] at hkind
      split at hkind <;> cases hkind
    | ok response =>
      obtain ⟨object, urls⟩ := response
      cases object with
      | none => cases hblames
      | some o =>
        cases o with
        | ipNetwork n =>
          cases hcovering : Network.covering n.startAddress n.endAddress with
          | error e => exact ⟨_, n, e, rfl, rfl, hcovering⟩
          | ok covering =>
            rw [resultOf, allocationOf_of_object rfl hcovering] at hblames
            exact hblames.elim
        | domain _ | entity _ | nameserver _ | autnum _ => cases hblames
  · rintro ⟨response, n, e, rfl, hobject, hcovering⟩
    simp only [resultOf, allocationOf, hobject, hcovering]
    rfl

theorem requests_afterAnswer (t : Task) (answer : Except ClientError Response) (s : State) :
    (afterAnswer t answer s).requests = s.requests ++ [.rdap (request t.text)] := by
  unfold afterAnswer
  cases allocationOf t.text answer <;> rfl

/-- A search blames the text when it cannot be read, and when the registry is asked and reports a bad range. -/
theorem blames_resolve_iff (world : World) (t : Task) (s : State) :
    Blames ((resolve t).run.run world s).1 ↔ CannotRead .ipNetwork t.text ∨
      ((resolve t).run.run world s).2.requests = s.requests ++ [.rdap (request t.text)] ∧
        ∃ answer, world s.requests (.rdap (request t.text)) = some answer ∧ ReportsBadRange answer := by
  rw [← parse?_eq_none_iff]
  cases hparse : Target.parse? t.text with
  | none =>
    rw [run_resolve_malformed hparse]
    exact iff_of_true rfl (.inl rfl)
  | some target =>
    cases haround : target.around? s with
    | some range =>
      rw [run_resolve_found hparse haround]
      refine iff_of_false id ?_
      rintro (hnone | ⟨hasked, -⟩)
      · cases hnone
      · cases List.self_eq_append_right.mp (show s.requests = s.requests ++ _ from hasked)
    | none =>
      cases hanswer : world s.requests (.rdap (request t.text)) with
      | none =>
        rw [run_resolve_unanswered hparse haround hanswer]
        refine iff_of_false id ?_
        rintro (hnone | ⟨-, answer, hsome, -⟩)
        · cases hnone
        · cases hsome
      | some answer =>
        rw [run_resolve_answered hparse haround hanswer]
        refine (blames_resultOf_iff answer).trans
          ⟨fun hbad => .inr ⟨requests_afterAnswer t answer _, answer, rfl, hbad⟩, ?_⟩
        rintro (hnone | ⟨-, other, hother, hbad⟩)
        · cases hnone
        · cases hother
          exact hbad

end IpNetworks

/-- Except for a network, only a search by a text that cannot be read blames the text. -/
theorem yields_blame (hservice : t.service c = .resolve r missing) (hsource : t.type.source = "rdap")
    (hnetwork : t.type ≠ .ipNetwork) :
    r.Yields (Fits t.type t.method t.scope)
      fun cause => cause.kind = .malformedInput → t.method = .search ∧ CannotRead t.type t.text := by
  have hserved := hservice ▸ Task.servedBy c t
  cases hserved with
  | gotName _ htype | gotPage _ htype | soughtName _ htype | soughtAddress _ htype =>
    rw [htype] at hsource
    exact absurd hsource (by decide)
  | gotAutnum _ htype => exact (yields_autnum htype).mono (fun _ h => h) fun _ h hkind => absurd hkind h
  | gotEntity _ htype => exact (yields_entity htype _).mono (fun _ h => h) fun _ h hkind => absurd hkind h
  | soughtDomain _ htype => exact (yields_domain htype).mono (fun _ h => h) fun _ h hkind => absurd hkind h
  | soughtEntity _ htype hmethod =>
    refine (yields_entity_search htype).mono (fun _ h => h) fun _ h hkind => ⟨hmethod, ?_⟩
    rw [htype]
    exact h hkind
  | soughtNetwork _ htype => exact absurd htype hnetwork
  | soughtNameserver _ htype hmethod =>
    refine (yields_nameserver htype).mono (fun _ h => h) fun _ h hkind => ⟨hmethod, ?_⟩
    rw [htype]
    exact h hkind

theorem run_urlOf_of_cannotRead {kind : Rdap.Kind} {text : String}
    (h : ∀ url, Rdap.Url.parse? text = some url → url.kind ≠ kind) :
    ∃ cause : Cause, cause.kind = .malformedInput ∧ (urlOf kind text).run = .done (.error cause) := by
  unfold urlOf
  cases hparse : Rdap.Url.parse? text with
  | none => exact ⟨.notARegistryUrl text, rfl, rfl⟩
  | some url =>
    rw [hparse] at h
    exact ⟨.urlOfOtherKind kind url.kind, rfl, by simp only [if_neg (h url rfl)]; rfl⟩

theorem service_of_cannotRead (c : Config) (hscope : t.scope = globalScope) (hmethod : t.method = .search)
    (hread : CannotRead t.type t.text) :
    ∃ r cause, t.service c = .resolve r none ∧ cause.kind = .malformedInput ∧ r.run = .done (.error cause) := by
  obtain ⟨type, method, scope, text, ignoreCache, ttl⟩ := t
  dsimp only at hscope hmethod hread
  subst hscope hmethod
  cases type with
  | ipNetwork =>
    refine ⟨_, .notARange text, rfl, rfl, IpNetworks.resolve_malformed (IpNetworks.parse?_eq_none_iff.mpr hread)⟩
  | entity =>
    obtain ⟨cause, hkind, hrun⟩ := run_urlOf_of_cannotRead hread
    refine ⟨_, cause, rfl, hkind, ?_⟩
    rw [Resolution.run_bind, hrun]
    rfl
  | nameserver =>
    obtain ⟨cause, hkind, hrun⟩ := run_urlOf_of_cannotRead hread
    refine ⟨_, cause, rfl, hkind, ?_⟩
    rw [Nameservers.resolve, Resolution.run_bind, hrun]
    rfl
  | dns | http | ip | asn | domain => exact hread.elim

theorem recalled?_of_cannotRead (h : Reachable c world s) (ht : t.ttl = lifetime c t.type)
    (hservice : t.service c = .resolve r none) {cause : Cause} (hkind : cause.kind = .malformedInput)
    (hrun : r.run = .done (.error cause)) : t.recalled? s = none := by
  rw [Option.eq_none_iff_forall_ne_some]
  intro o ho
  have hcacheable := h.isCacheable_recalled ho
  obtain ⟨-, entry, hentry, -, rfl⟩ := Cache.Results.lookup_eq_some_iff.mp ho
  obtain ⟨u, r', missing, result, s', hkey, hu, hservice', hresult, houtcome⟩ := h.exists_result hentry
  rw [Task.service_eq_of_key_eq hkey hu ht, hservice] at hservice'
  cases hservice'
  rw [hrun] at hresult
  cases hresult
  rw [houtcome] at hcacheable
  exact not_isMalformed_of_isCacheable hcacheable hkind

/-- A search by a text that cannot be read is malformed, and nothing is asked. -/
theorem malformed_of_cannotRead (h : Reachable c world s) (htype : ItemType.ofName? q.type = some type)
    (hscope : q.scope = globalScope) (hmethod : q.method = .search) (hread : CannotRead type q.text) :
    let run := (execute c q ignoreCache).run world s
    IsMalformed run.1 ∧ run.2.requests = s.requests := by
  intro run
  let t := Task.ofQuery c type q ignoreCache
  obtain ⟨r, cause, hservice, hkind, hfails⟩ : ∃ r cause, t.service c = .resolve r none ∧ _ :=
    service_of_cannotRead c hscope hmethod hread
  have hrecalled := recalled?_of_cannotRead h rfl hservice hkind hfails
  have hresolution : r.run.run world (t.afterLookup s) = (some (.error cause), t.afterLookup s) := by
    rw [hfails]
    rfl
  have hrun : run = _ := Task.run_execute_resolved htype hservice hrecalled hresolution
  rw [hrun]
  exact ⟨hkind, rfl⟩

theorem service_of_network (hservice : t.service c = .resolve r missing) (htype : t.type = .ipNetwork) :
    t.method = .search ∧ r = IpNetworks.resolve t := by
  have hserved := hservice ▸ Task.servedBy c t
  cases hserved <;> simp_all only [reduceCtorEq, and_self]

/-- In every history a query for a registry type, in the scope that registries serve, blames the text exactly when it
searches by a text that cannot be read, or for a network of which the registry, being asked, reports a range that no
network covers. For a text that cannot be read nothing is asked. -/
theorem malformed_iff (h : Reachable c world s) (htype : ItemType.ofName? q.type = some type)
    (hsource : type.source = "rdap") (hscope : q.scope = globalScope) :
    let run := (execute c q ignoreCache).run world s
    (IsMalformed run.1 ↔ q.method = .search ∧ (CannotRead type q.text ∨
      type = .ipNetwork ∧ run.2.requests = s.requests ++ [.rdap ⟨.ipNetwork, q.text, none⟩] ∧
        ∃ answer, world s.requests (.rdap ⟨.ipNetwork, q.text, none⟩) = some answer ∧ ReportsBadRange answer)) ∧
    (q.method = .search → CannotRead type q.text → run.2.requests = s.requests) := by
  intro run
  let t := Task.ofQuery c type q ignoreCache
  have hrun : run = (t.serve (t.service c)).run world s := by
    rw [← execute_known c htype ignoreCache]
  have hunreadable (hmethod : q.method = .search) (hread : CannotRead type q.text) :
      IsMalformed run.1 ∧ run.2.requests = s.requests := malformed_of_cannotRead h htype hscope hmethod hread
  refine ⟨⟨fun hmalformed => ?_, ?_⟩, fun hmethod hread => (hunreadable hmethod hread).2⟩
  · rw [hrun] at hmalformed ⊢
    cases hservice : t.service c with
    | answer o =>
      rw [hservice] at hmalformed
      exact absurd hmalformed (not_isMalformed_answer hservice hscope hsource)
    | replay m =>
      rw [hservice, Task.run_serve_replay, h.recalled?_of_replay rfl hservice] at hmalformed
      have hkind : m.kind = .malformedInput := hmalformed
      rw [kind_of_replay hservice] at hkind
      cases hkind
    | resolve r missing =>
      obtain ⟨hrecalled, hblames⟩ := (isMalformed_serve_iff h hservice).mp hmalformed
      have hasked := requests_serve hservice world s
      rw [if_pos hrecalled] at hasked
      by_cases hnetwork : type = .ipNetwork
      · obtain ⟨hmethod, rfl⟩ := service_of_network hservice hnetwork
        refine ⟨hmethod, ?_⟩
        rw [← hservice, hasked, hnetwork]
        exact ((IpNetworks.blames_resolve_iff world t _).mp hblames).imp_right fun hbad => ⟨rfl, hbad⟩
      · obtain ⟨cause, hresult, hkind⟩ := exists_cause_of_blames hblames
        obtain ⟨hmethod, hread⟩ := yields_blame hservice hsource hnetwork world _ (.error cause) hresult hkind
        exact ⟨hmethod, .inl hread⟩
  · rintro ⟨hmethod, hread | ⟨hnetwork, hasked, hanswer⟩⟩
    · exact (hunreadable hmethod hread).1
    · have hservice : t.service c = .resolve (IpNetworks.resolve t) none := Task.service_search hnetwork hmethod hscope
      have hrequests := requests_serve hservice world s
      rw [hrun] at hasked ⊢
      rw [hasked] at hrequests
      have hrecalled : t.recalled? s = none := by
        by_contra hne
        rw [if_neg hne] at hrequests
        cases List.append_right_eq_self.mp hrequests
      rw [if_pos hrecalled] at hrequests
      have hblames := (IpNetworks.blames_resolve_iff world t (t.afterLookup s)).mpr (.inr ⟨hrequests.symm, hanswer⟩)
      exact (isMalformed_serve_iff h hservice).mpr ⟨hrecalled, hblames⟩

/-- Whatever the world is, a nameserver cannot be searched by the URL of an entity. -/
theorem malformed_of_entity_url :
    let world : World := fun _ _ => none
    let q : Query := ⟨"rdap-nameserver", .search, "https://rdap.net/entity/X", "global"⟩
    let run := (execute {} q false).run world {}
    Reachable {} world {} ∧ CannotRead .nameserver q.text ∧ IsMalformed run.1 ∧ run.2.requests = [] := by
  intro world q run
  have hs : Reachable {} world {} := Reachable.fresh 0
  have hurl : Rdap.Url.parse? q.text = some ⟨"https://rdap.net", .entity, "X"⟩ := by decide +kernel
  have hread : CannotRead .nameserver q.text := by
    intro url h
    rw [hurl] at h
    cases h
    decide
  have hknown : ItemType.ofName? q.type = some .nameserver := ItemType.ofName?_name .nameserver
  obtain ⟨hiff, hsilent⟩ : (IsMalformed run.1 ↔ _) ∧ _ := malformed_iff hs hknown rfl rfl
  exact ⟨hs, hread, hiff.mpr ⟨rfl, .inl hread⟩, hsilent rfl hread⟩

/-- A search by an address is malformed, after the registry was asked, when the registry leaves out the range. -/
theorem malformed_without_range :
    let world : World := fun _ r =>
      match r with
      | .rdap _ => some (.ok ⟨some (.ipNetwork { handle := some "NET-1" }), []⟩)
      | _ => none
    let q : Query := ⟨"rdap-ip-network", .search, "1.1.1.1", "global"⟩
    let run := (execute {} q false).run world {}
    Reachable {} world {} ∧ Address.parse? q.text = some (.v4 0x01010101) ∧ IsMalformed run.1 ∧
      run.2.requests = [.rdap ⟨.ipNetwork, "1.1.1.1", none⟩] := by
  intro world q run
  exact ⟨Reachable.fresh 0, by decide +kernel, by decide +kernel, by decide +kernel⟩

end AssetGraph.Resolve

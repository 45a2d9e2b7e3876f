import AssetGraph.Proofs.Dns.Candidates
import AssetGraph.Proofs.Resolve.Search

/-!
# The walk to the domain of a host

The registry is asked for the candidates of a name in turn, each at most once, until it answers one without an error. That
answer alone decides what is found; when every candidate is refused, nothing is. What the registry answers may depend on
all that it was asked before.
-/
namespace AssetGraph.Resolve

def State.sending (s : State) (requests : List Request) : State := { s with requests := s.requests ++ requests }

theorem State.sending_nil (s : State) : s.sending [] = s := by
  rw [sending, List.append_nil]

theorem State.sending_append (s : State) (before after : List Request) :
    s.sending (before ++ after) = (s.sending before).sending after := by
  simp only [sending, List.append_assoc]

namespace Domains

open Rdap

variable {c : Config} {world : World} {sent : List Request} {s : State} {name candidate : String}
  {before after candidates asked : List String} {response : Response} {result : Option (Except QueryError Found)}

def request (candidate : String) : Rdap.Request := ⟨.domain, candidate, none⟩

def requests (candidates : List String) : List Request := candidates.map fun candidate => .rdap (request candidate)

/-- Whether each candidate is refused when it is asked for after those before it. -/
def Refused (world : World) (sent : List Request) (candidates : List String) : Prop :=
  ∀ before candidate after, candidates = before ++ candidate :: after →
    ∃ e, world (sent ++ requests before) (.rdap (request candidate)) = some (.error e)

def verdict (candidate : String) (response : Response) : Except QueryError Found :=
  match response.object with
  | some (.domain domain) => .ok ⟨candidate, domain, response.urls⟩
  | some o => .error { kind := .unexpectedResponse, message := "Expected domain, got " ++ o.className }
  | none => .error { kind := .notFound, message := "Empty domain response for " ++ candidate }

/-- How a walk from a name ends: the candidates that were asked for, in order, and what came of it. -/
inductive Ends (world : World) (sent : List Request) (name : String) :
    List String → Option (Except QueryError Found) → Prop
  | refused (hrefused : Refused world sent (Dns.candidates name)) :
      Ends world sent name (Dns.candidates name)
        (some (.error { kind := .notFound, message := "No domain found for " ++ name }))
  | answered {before after : List String} {candidate : String} {response : Response}
      (hcut : Dns.candidates name = before ++ candidate :: after) (hrefused : Refused world sent before)
      (hanswer : world (sent ++ requests before) (.rdap (request candidate)) = some (.ok response)) :
      Ends world sent name (before ++ [candidate]) (some (verdict candidate response))
  | unanswered {before after : List String} {candidate : String}
      (hcut : Dns.candidates name = before ++ candidate :: after) (hrefused : Refused world sent before)
      (hanswer : world (sent ++ requests before) (.rdap (request candidate)) = none) :
      Ends world sent name (before ++ [candidate]) none

theorem requests_cons (candidate : String) (rest : List String) :
    requests (candidate :: rest) = [.rdap (request candidate)] ++ requests rest := rfl

theorem refused_nil : Refused world sent [] := fun _ _ _ hcut => nomatch List.append_eq_nil_iff.mp hcut.symm

theorem refused_cons_iff :
    Refused world sent (candidate :: candidates) ↔
      (∃ e, world sent (.rdap (request candidate)) = some (.error e)) ∧
        Refused world (sent ++ [.rdap (request candidate)]) candidates := by
  constructor
  · intro h
    constructor
    · have hfirst := h [] candidate candidates rfl
      rwa [requests, List.map_nil, List.append_nil] at hfirst
    · intro before other after hcut
      have hother := h (candidate :: before) other after (congrArg (candidate :: ·) hcut)
      rwa [requests_cons, ← List.append_assoc] at hother
  · rintro ⟨hfirst, hrest⟩ before other after hcut
    cases before with
    | nil =>
      cases hcut
      rwa [requests, List.map_nil, List.append_nil]
    | cons first before =>
      cases hcut
      rw [requests_cons, ← List.append_assoc]
      exact hrest before other after rfl

theorem refused_or_exists_first (world : World) (sent : List Request) (candidates : List String) :
    Refused world sent candidates ∨ ∃ before candidate after, candidates = before ++ candidate :: after ∧
      Refused world sent before ∧
        ∀ e, world (sent ++ requests before) (.rdap (request candidate)) ≠ some (.error e) := by
  induction candidates generalizing sent with
  | nil => exact .inl refused_nil
  | cons candidate rest ih =>
    by_cases hfirst : ∃ e, world sent (.rdap (request candidate)) = some (.error e)
    · rcases ih (sent ++ [.rdap (request candidate)]) with hrest | ⟨before, other, after, hcut, hbefore, hother⟩
      · exact .inl (refused_cons_iff.mpr ⟨hfirst, hrest⟩)
      · refine .inr ⟨candidate :: before, other, after, congrArg (candidate :: ·) hcut,
          refused_cons_iff.mpr ⟨hfirst, hbefore⟩, fun e => ?_⟩
        rw [requests_cons, ← List.append_assoc]
        exact hother e
    · refine .inr ⟨[], candidate, rest, rfl, refused_nil, fun e hanswer => hfirst ⟨e, ?_⟩⟩
      rwa [requests, List.map_nil, List.append_nil] at hanswer

/-- Every walk ends, whatever the registry answers. -/
theorem exists_ends (world : World) (sent : List Request) (name : String) :
    ∃ asked result, Ends world sent name asked result := by
  rcases refused_or_exists_first world sent (Dns.candidates name) with hall | ⟨before, candidate, after, hcut, hrefused, hfirst⟩
  · exact ⟨_, _, .refused hall⟩
  · rcases hanswer : world (sent ++ requests before) (.rdap (request candidate)) with _ | e | response
    · exact ⟨_, _, .unanswered hcut hrefused hanswer⟩
    · exact absurd hanswer (hfirst e)
    · exact ⟨_, _, .answered hcut hrefused hanswer⟩

def decided (candidate : String) (response : Response) : Except Cause Found :=
  match response.object with
  | some (.domain domain) => .ok ⟨candidate, domain, response.urls⟩
  | some o => .error (.otherClass "domain" o.className)
  | none => .error (.noDomainObject candidate)

theorem decided_mapError (candidate : String) (response : Response) :
    (decided candidate response).mapError Cause.error = verdict candidate response := by
  obtain ⟨object, urls⟩ := response
  cases object with
  | none => rfl
  | some o => cases o <;> rfl

theorem walk_nil (name : String) : (walk name []).run = .done (.error (.nothingFound "domain" name)) := rfl

theorem walk_cons (name candidate : String) (rest : List String) :
    (walk name (candidate :: rest)).run = .ask (.rdap (request candidate)) fun
      | .error _ => (walk name rest).run
      | .ok response => .done (decided candidate response) := by
  rw [walk, Resolution.run_bind, Resolution.run_lift]
  refine congrArg (Plan.ask (.rdap (request candidate))) (funext fun answer => ?_)
  cases answer with
  | error e => rfl
  | ok response =>
    obtain ⟨object, urls⟩ := response
    cases object with
    | none => rfl
    | some o => cases o <;> rfl

theorem run_walk_of_refused (h : Refused world s.requests before) :
    (walk name (before ++ after)).run.run world s = (walk name after).run.run world (s.sending (requests before)) := by
  induction before generalizing s with
  | nil => rw [List.nil_append, requests, List.map_nil, State.sending_nil]
  | cons candidate before ih =>
    obtain ⟨⟨e, hanswer⟩, hrest⟩ := refused_cons_iff.mp h
    rw [List.cons_append, walk_cons, Plan.run, hanswer, requests_cons, State.sending_append]
    exact ih hrest

theorem run_walk_answered (h : world s.requests (.rdap (request candidate)) = some (.ok response)) :
    (walk name (candidate :: after)).run.run world s =
      (some (decided candidate response), s.sending (requests [candidate])) := by
  rw [walk_cons, Plan.run, h]
  rfl

theorem run_walk_unanswered (h : world s.requests (.rdap (request candidate)) = none) :
    (walk name (candidate :: after)).run.run world s = (none, s.sending (requests [candidate])) := by
  rw [walk_cons, Plan.run, h]
  rfl

/-- A walk comes to what its end says, and sends the requests for the candidates asked for and no others. -/
theorem run_find (h : Ends world s.requests name asked result) :
    ∃ found, (find name).run.run world s = (found, s.sending (requests asked)) ∧
      found.map (Except.mapError Cause.error) = result := by
  cases h with
  | refused hrefused =>
    refine ⟨some (.error (.nothingFound "domain" name)), ?_, rfl⟩
    have hwalk : (walk name (Dns.candidates name ++ [])).run.run world s = _ := run_walk_of_refused hrefused
    rw [List.append_nil] at hwalk
    rw [find, hwalk, walk_nil]
    rfl
  | @answered before after candidate response hcut hrefused hanswer =>
    refine ⟨some (decided candidate response), ?_, congrArg some (decided_mapError ..)⟩
    have hsent : (s.sending (requests before)).requests = s.requests ++ requests before := rfl
    rw [find, hcut, run_walk_of_refused hrefused, run_walk_answered (hsent ▸ hanswer), ← State.sending_append]
    simp [requests]
  | @unanswered before after candidate hcut hrefused hanswer =>
    refine ⟨none, ?_, rfl⟩
    have hsent : (s.sending (requests before)).requests = s.requests ++ requests before := rfl
    rw [find, hcut, run_walk_of_refused hrefused, run_walk_unanswered (hsent ▸ hanswer), ← State.sending_append]
    simp [requests]

theorem Ends.isPrefix (h : Ends world sent name asked result) : asked <+: Dns.candidates name := by
  cases h with
  | refused => exact List.prefix_rfl
  | @answered before after candidate _ hcut | @unanswered before after candidate hcut =>
    exact ⟨after, by rw [hcut, List.append_assoc, List.singleton_append]⟩

def outcomeOf : Except QueryError Found → Outcome
  | .ok found => .ok [{
      type := "rdap-domain"
      scope := "global"
      uniqueAttribute := "handle"
      attributes := found.domain.attributes
      edges := found.domain.edges found.urls }]
  | .error e => .error (e.inContext "global" "rdap-domain" "rdap")

theorem run_resolve (t : Task) (s : State) :
    (resolve t).run.run world s =
      (((find t.text).run.run world s).1.map fun found => found.map fun found =>
          [t.item "handle" found.domain.attributes (found.domain.edges found.urls)],
        ((find t.text).run.run world s).2) := by
  rw [resolve, Resolution.run_bind, Plan.run_bind]
  rcases (find t.text).run.run world s with ⟨_ | cause | found, s'⟩ <;> rfl

theorem run_search (h : Ends world s.requests name asked result) {ignoreCache : Bool}
    (hrecalled : (Task.ofQuery c .domain ⟨"rdap-domain", .search, name, "global"⟩ ignoreCache).recalled? s = none) :
    let search := (execute c ⟨"rdap-domain", .search, name, "global"⟩ ignoreCache).run world s
    search.1 = result.map outcomeOf ∧ search.2.requests = s.requests ++ requests asked := by
  intro search
  let t := Task.ofQuery c .domain ⟨"rdap-domain", .search, name, "global"⟩ ignoreCache
  have hsearch : search = (t.serve (.resolve (resolve t) none)).run world s := by
    rw [← show t.service c = .resolve (resolve t) none from rfl, ← execute_known c (ItemType.ofName?_name .domain)]
  have hends : Ends world (t.afterLookup s).requests name asked result := h
  obtain ⟨found, hfind, hresult⟩ := run_find hends
  have hresolve : (resolve t).run.run world (t.afterLookup s) = _ := run_resolve t _
  rw [show t.text = name from rfl, hfind] at hresolve
  rw [hsearch, ← hresult]
  rcases found with _ | cause | found
  · rw [Task.run_serve_unanswered hrecalled hresolve]
    exact ⟨rfl, rfl⟩
  · rw [Task.run_serve_resolved hrecalled hresolve]
    exact ⟨rfl, rfl⟩
  · rw [Task.run_serve_resolved hrecalled hresolve]
    exact ⟨rfl, rfl⟩

/-- Every walk ends in one of three ways, and comes to what its end says: it sends the requests for the candidates asked for,
each once and in their order, and no others. A search by the same name that recalls no outcome sends the same requests, and
what it gives is made of the answer that ended the walk. -/
theorem walk_ends_at_first_answer (c : Config) (world : World) (s : State) (name : String) (ignoreCache : Bool) :
    let q : Query := ⟨"rdap-domain", .search, name, "global"⟩
    let walk := (find name).run.run world s
    let search := (execute c q ignoreCache).run world s
    (∃ asked result, Ends world s.requests name asked result) ∧
    ∀ asked result, Ends world s.requests name asked result →
      asked.Nodup ∧
      walk.1.map (Except.mapError Cause.error) = result ∧ walk.2 = s.sending (requests asked) ∧
      ((Task.ofQuery c .domain q ignoreCache).recalled? s = none →
        search.1 = result.map outcomeOf ∧ search.2.requests = s.requests ++ requests asked) := by
  intro q walk search
  refine ⟨exists_ends world s.requests name, fun asked result hends => ?_⟩
  obtain ⟨found, hfind, hresult⟩ := run_find hends
  have hwalk : walk = (found, s.sending (requests asked)) := hfind
  rw [hwalk]
  exact ⟨(Dns.nodup_candidates name).sublist hends.isPrefix.sublist, hresult, rfl, run_search hends⟩

/-- A registry that fails at first and answers later, whatever it is asked, is asked for two of three candidates. -/
theorem walk_ends_at_second_candidate :
    let world : World := fun sent r =>
      match r with
      | .rdap _ => some (if sent = [] then .error ⟨.transport, "timeout"⟩ else .ok ⟨some (.domain {}), []⟩)
      | _ => none
    let search := (execute {} ⟨"rdap-domain", .search, "www.example.co.uk", "global"⟩ false).run world {}
    Dns.candidates "www.example.co.uk" = ["www.example.co.uk", "example.co.uk", "co.uk"] ∧
      search.1 = some (outcomeOf (.ok ⟨"example.co.uk", {}, []⟩)) ∧
      search.2.requests = [.rdap ⟨.domain, "www.example.co.uk", none⟩, .rdap ⟨.domain, "example.co.uk", none⟩] := by
  intro world
  have hcandidates : Dns.candidates "www.example.co.uk" = ["www.example.co.uk", "example.co.uk", "co.uk"] := by
    decide +kernel
  have hcut : Dns.candidates "www.example.co.uk" = ["www.example.co.uk"] ++ "example.co.uk" :: ["co.uk"] := hcandidates
  have hends : Ends world [] "www.example.co.uk" ["www.example.co.uk", "example.co.uk"] _ :=
    .answered hcut (refused_cons_iff.mpr ⟨⟨_, rfl⟩, refused_nil⟩) rfl
  obtain ⟨-, hall⟩ := walk_ends_at_first_answer {} world {} "www.example.co.uk" false
  obtain ⟨-, -, -, hsearch⟩ := hall _ _ hends
  exact ⟨hcandidates, hsearch rfl⟩

end Domains
end AssetGraph.Resolve

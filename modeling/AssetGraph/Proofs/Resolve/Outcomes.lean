import AssetGraph.Proofs.Cache.Contents
import AssetGraph.Proofs.Cache.Counters
import AssetGraph.Proofs.Resolve.Finding
import AssetGraph.Proofs.Resolve.Stores

/-!
# What outcomes look like

In every history the result cache is sound and its gauge shows its size. An outcome befits the query that it answers,
whether it is computed or replayed: a success shows findings of the type of the query, and an error says where it comes
from.
-/
namespace AssetGraph.Resolve

variable {α : Type} {c : Config} {world : World} {t u : Task} {q : Query} {s : State} {type : ItemType}
  {method : Method} {scope : String} {r : Resolution (List Item)} {missing : Option Cause} {ignoreCache : Bool}
  {key : Identity} {entry : Cache.Entry} {o : Outcome} {items : List Item} {result : Except Cause (List Item)}

theorem Plan.invariant_run {P : Cache.Results → Prop} (hP : Cache.Results.Invariant P) (p : Plan α) (h : P s.results) :
    P (p.run world s).2.results := by
  induction p generalizing s with
  | done a => exact h
  | lookUp key ignoreCache next ih => exact ih _ (hP.lookup s.now key ignoreCache h)
  | findAddress a next ih => exact ih _ h
  | findNetwork n next ih => exact ih _ h
  | ask request next ih =>
    simp only [run]
    cases world s.requests request with
    | none => exact h
    | some answer => exact ih answer h
  | remember n allocation ttl next ih => exact ih h
  | keep key outcome ttl next ih => exact ih (hP.settle s.now key outcome ttl h)

theorem Reachable.results_invariant {P : Cache.Results → Prop} (h : Reachable c world s)
    (hP : Cache.Results.Invariant P) (hempty : P {}) : P s.results := by
  induction h with
  | fresh now => exact hempty
  | step _ step ih =>
    cases step with
    | execute q ignoreCache => exact Plan.invariant_run hP _ ih
    | advance milliseconds => exact ih

theorem Reachable.resultsSound (h : Reachable c world s) : s.results.Sound := h.results_invariant .sound .empty

theorem Reachable.resultsGauged (h : Reachable c world s) : s.results.IsGauged := h.results_invariant .gauged rfl

theorem kind_of_isCacheable {e : QueryError} (h : Outcome.isCacheable (.error e) = true) :
    e.kind = .notFound ∨ e.kind = .exchangeFailed := by
  obtain ⟨kind, message, scope, itemType, source⟩ := e
  cases kind with
  | notFound => exact .inl rfl
  | exchangeFailed => exact .inr rfl
  | noScope | malformedInput | unexpectedResponse => cases h

theorem Reachable.isCacheable_recalled (h : Reachable c world s) (ho : t.recalled? s = some o) :
    o.isCacheable = true := by
  obtain ⟨-, entry, hentry, -, rfl⟩ := Cache.Results.lookup_eq_some_iff.mp ho
  exact h.resultsSound.isCacheable_of_find? hentry

/-- Whether an error says in which scope, for which type and from which source it comes. -/
structure IsAttributed (type : ItemType) (scope : String) (e : QueryError) : Prop where
  scope : e.scope = some scope
  itemType : e.itemType = some type.name
  source : e.source = some type.source

/-- What the outcome of a query for a type can be. -/
def Befits (type : ItemType) (method : Method) (scope : String) : Outcome → Prop
  | .ok items => Fits type method scope items
  | .error e => IsAttributed type scope e

theorem isAttributed_within (cause : Cause) (type : ItemType) (scope : String) :
    IsAttributed type scope (cause.within type scope) := ⟨rfl, rfl, rfl⟩

namespace Task

theorem befits_failure (t : Task) (cause : Cause) : Befits t.type t.method t.scope (.error (t.failure cause)) :=
  isAttributed_within ..

theorem befits_outcome (hservice : t.service c = .resolve r missing) (hresult : (r.run.run world s).1 = some result) :
    Befits t.type t.method t.scope (t.outcome result) := by
  have hyields := yields_of_service hservice world s result hresult
  cases result with
  | ok items => exact hyields
  | error cause => exact t.befits_failure cause

theorem befits_deliver (missing : Option Cause) (h : Befits t.type t.method t.scope o) :
    Befits t.type t.method t.scope (t.deliver missing o) := by
  cases missing with
  | none => exact h
  | some cause =>
    cases o with
    | error e => exact h
    | ok items =>
      cases items with
      | nil => exact t.befits_failure cause
      | cons item rest => exact .singleton (h.shows item List.mem_cons_self)

/-- An answer that needs nothing befits its task; that a scope is not served is said of the scope itself. -/
theorem befits_of_service (h : t.service c = .answer o) : Befits t.type t.method t.scope o := by
  have hserved := h ▸ servedBy c t
  cases hserved with
  | unserved => exact ⟨rfl, rfl, rfl⟩
  | refused => exact t.befits_failure _
  | nothing => exact ⟨nofun, fun _ => Nat.zero_le _⟩
  | gotAddress _ htype => exact .singleton ⟨.address _, htype.symm, rfl⟩

theorem scope_of_service (h : t.service c = .resolve r missing) : t.scope = globalScope := by
  have hserved := h ▸ servedBy c t
  cases hserved <;> assumption

end Task

/-- A kept outcome befits its key, which is the key of a query in the global scope. -/
theorem Reachable.befits_kept (h : Reachable c world s) (he : s.results.find? key = some entry) :
    ∃ type, ItemType.ofName? key.type = some type ∧ key.source = type.source ∧ key.scope = globalScope ∧
      Befits type key.method key.scope entry.outcome := by
  obtain ⟨t, r, missing, result, s', rfl, -, hservice, hresult, houtcome⟩ := h.exists_result he
  rw [houtcome]
  exact ⟨t.type, ItemType.ofName?_name _, rfl, Task.scope_of_service hservice, Task.befits_outcome hservice hresult⟩

theorem Reachable.befits_recalled (h : Reachable c world s) (ho : t.recalled? s = some o) :
    Befits t.type t.method t.scope o := by
  obtain ⟨-, entry, hentry, -, rfl⟩ := Cache.Results.lookup_eq_some_iff.mp ho
  obtain ⟨type, htype, -, -, hbefits⟩ := h.befits_kept hentry
  have hsame : t.type = type := Option.some.inj ((ItemType.ofName?_name t.type).symm.trans htype)
  exact hsame ▸ hbefits

/-- In every history an outcome befits the query that it answers. -/
theorem Reachable.befits_execute (h : Reachable c world s) (htype : ItemType.ofName? q.type = some type)
    (hrun : ((execute c q ignoreCache).run world s).1 = some o) : Befits type q.method q.scope o := by
  rw [execute_known c htype] at hrun
  let t := Task.ofQuery c type q ignoreCache
  change Befits t.type t.method t.scope o
  rcases Task.serve_cases c world t s with ⟨outcome, hservice, hserve, -⟩ | ⟨m, -, hserve, -⟩ |
    ⟨r, missing, outcome, -, hrecalled, hserve, -⟩ | ⟨r, missing, s', -, -, -, -, hserve, -⟩ |
    ⟨r, missing, result, s', hservice, -, hresult, -, -, hserve, -⟩
  · rw [hserve] at hrun
    cases hrun
    exact Task.befits_of_service hservice
  · rw [hserve] at hrun
    cases hrun
    cases hrecalled : t.recalled? s with
    | none => exact t.befits_failure m
    | some outcome => exact Task.befits_deliver (some m) (h.befits_recalled hrecalled)
  · rw [hserve] at hrun
    cases hrun
    exact Task.befits_deliver missing (h.befits_recalled hrecalled)
  · rw [hserve] at hrun
    cases hrun
  · rw [hserve] at hrun
    cases hrun
    exact Task.befits_deliver missing (Task.befits_outcome hservice (by rw [hresult]))

theorem scope_of_ok (htype : ItemType.ofName? q.type = some type)
    (hrun : ((execute c q ignoreCache).run world s).1 = some (.ok items)) : q.scope = globalScope := by
  by_contra hscope
  rw [execute_unserved htype hscope] at hrun
  cases hrun

/-- In every history a success answers a query for a known type, in the scope of all names, with items that show findings
of that type. -/
theorem Reachable.shows_of_ok (h : Reachable c world s)
    (hrun : ((execute c q ignoreCache).run world s).1 = some (.ok items)) :
    ∃ type, ItemType.ofName? q.type = some type ∧ ∀ item ∈ items, Shows type globalScope item := by
  cases htype : ItemType.ofName? q.type with
  | none =>
    simp only [execute, htype] at hrun
    cases hrun
  | some type =>
    have hfits : Fits type q.method q.scope items := h.befits_execute htype hrun
    rw [scope_of_ok htype hrun] at hfits
    exact ⟨type, rfl, hfits.shows⟩

end AssetGraph.Resolve

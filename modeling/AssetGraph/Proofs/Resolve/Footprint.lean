import AssetGraph.Proofs.Cache.Counters
import AssetGraph.Proofs.Resolve.History

/-!
# What an execution uses

An execution looks up and keeps outcomes under one key only, and only a search for a network uses the allocations. It goes
the same way in all states that look the same within this footprint, and leaves alone what is outside.
-/
namespace AssetGraph

namespace Query

def identity (q : Query) : Identity :=
  ⟨((ItemType.ofName? q.type).map ItemType.source).getD "", q.method, q.scope, q.type, q.text⟩

theorem identity_inj {q q' : Query} (h : q.identity = q'.identity) : q = q' := by
  obtain ⟨type, method, text, scope⟩ := q
  obtain ⟨type', method', text', scope'⟩ := q'
  simp only [identity, Identity.mk.injEq] at h
  obtain ⟨-, rfl, rfl, rfl, rfl⟩ := h
  rfl

def IsNetworkSearch (q : Query) : Prop := ItemType.ofName? q.type = some .ipNetwork ∧ q.method = .search

instance (q : Query) : Decidable q.IsNetworkSearch := inferInstanceAs (Decidable (_ ∧ _))

end Query

namespace Resolve

open IpNetworks

/-- The part of the caches that a plan may use: what is kept under one key, looked up or not, and the allocations where
it searches. -/
structure Footprint where
  key : Identity
  ignoreCache : Bool
  searches : Bool

variable {α β : Type} {c : Config} {world : World} {client : Client} {f : Footprint} {s s' : State} {t : Task} {q : Query}
  {k : Identity} {ignoreCache : Bool}

/-- Whether two states look the same within a footprint, and the world goes on answering in the same way in both. -/
structure Footprint.Alike (f : Footprint) (world : World) (s s' : State) : Prop where
  now : s'.now = s.now
  ranges : f.searches = true → s'.ranges = s.ranges
  kept : f.ignoreCache = false → s'.results.find? f.key = s.results.find? f.key
  answers : ∀ sent r, world (s'.requests ++ sent) r = world (s.requests ++ sent) r

namespace Footprint.Alike

theorem lookup_fst (h : f.Alike world s s') :
    (s'.results.lookup s'.now f.key f.ignoreCache).1 = (s.results.lookup s.now f.key f.ignoreCache).1 := by
  cases hignore : f.ignoreCache with
  | true => rfl
  | false =>
    rw [h.now]
    exact (Cache.Results.lookup_congr (h.kept hignore)).1

theorem searched (h : f.Alike world s s') (searches : f.searches = true)
    (use : Cache.Ranges Rdap.IpNetwork → Nat → α) : use s'.ranges s'.now = use s.ranges s.now := by
  rw [h.ranges searches, h.now]

theorem answered (h : f.Alike world s s') (r : Request) : world s'.requests r = world s.requests r := by
  simpa using h.answers [] r

theorem lookUp (h : f.Alike world s s') :
    f.Alike world { s with results := (s.results.lookup s.now f.key f.ignoreCache).2 }
      { s' with results := (s'.results.lookup s'.now f.key f.ignoreCache).2 } where
  now := h.now
  ranges := h.ranges
  kept hignore := by
    rw [h.now]
    exact (Cache.Results.lookup_congr (h.kept hignore)).2
  answers := h.answers

theorem withRanges (h : f.Alike world s s') (ranges : Cache.Ranges Rdap.IpNetwork) :
    f.Alike world { s with ranges } { s' with ranges } where
  now := h.now
  ranges _ := rfl
  kept := h.kept
  answers := h.answers

theorem ask (h : f.Alike world s s') (r : Request) :
    f.Alike world { s with requests := s.requests ++ [r] } { s' with requests := s'.requests ++ [r] } where
  now := h.now
  ranges := h.ranges
  kept := h.kept
  answers sent next := by
    rw [List.append_assoc, List.append_assoc]
    exact h.answers _ next

theorem keep (h : f.Alike world s s') (outcome : Outcome) (ttl : Nat) :
    f.Alike world { s with results := s.results.settle s.now f.key outcome ttl }
      { s' with results := s'.results.settle s'.now f.key outcome ttl } where
  now := h.now
  ranges := h.ranges
  kept hignore := by
    simp only [Cache.Results.find?_settle, h.kept hignore, h.now]
  answers := h.answers

end Footprint.Alike

namespace Plan

inductive Within (f : Footprint) : Plan α → Prop
  | done (a : α) : Within f (.done a)
  | lookUp {next : Option Outcome → Plan α} (rest : ∀ found, Within f (next found)) :
      Within f (.lookUp f.key f.ignoreCache next)
  | findAddress {a : Address} {next : Option Rdap.IpNetwork → Plan α} (searches : f.searches = true)
      (rest : ∀ found, Within f (next found)) : Within f (.findAddress a next)
  | findNetwork {n : Network} {next : Option Rdap.IpNetwork → Plan α} (searches : f.searches = true)
      (rest : ∀ found, Within f (next found)) : Within f (.findNetwork n next)
  | ask {r : Request} {next : r.Answer → Plan α} (rest : ∀ answer, Within f (next answer)) : Within f (.ask r next)
  | remember {n : Network} {allocation : Rdap.IpNetwork} {ttl : Nat} {next : Plan α} (searches : f.searches = true)
      (rest : Within f next) : Within f (.remember n allocation ttl next)
  | keep {outcome : Outcome} {ttl : Nat} {next : Plan α} (rest : Within f next) :
      Within f (.keep f.key outcome ttl next)

namespace Within

variable {p : Plan α}

theorem bind {g : α → Plan β} (hp : p.Within f) (hg : ∀ a, (g a).Within f) : (p.bind g).Within f := by
  induction hp with
  | done a => exact hg a
  | lookUp _ ih => exact .lookUp ih
  | findAddress searches _ ih => exact .findAddress searches ih
  | findNetwork searches _ ih => exact .findNetwork searches ih
  | ask _ ih => exact .ask ih
  | remember searches _ ih => exact .remember searches ih
  | keep _ ih => exact .keep ih

theorem of_asksOnly (h : p.AsksOnly) : p.Within f := by
  induction h with
  | done a => exact .done a
  | ask _ ih => exact .ask ih

/-- A plan goes the same way in states that look the same within its footprint, and leaves them so. -/
theorem run_alike (hp : p.Within f) (h : f.Alike world s s') :
    (p.run world s').1 = (p.run world s).1 ∧ p.events world s' = p.events world s ∧
      f.Alike world (p.run world s).2 (p.run world s').2 := by
  induction hp generalizing s s' with
  | done a => exact ⟨rfl, rfl, h⟩
  | lookUp _ ih =>
    simp only [run, events, h.lookup_fst]
    obtain ⟨hresult, hevents, hafter⟩ := ih _ h.lookUp
    exact ⟨hresult, congrArg _ hevents, hafter⟩
  | @findAddress a next searches _ ih =>
    simp only [run, events, h.searched searches fun c now => c.searchAddress now a,
      h.searched searches fun c now => c.aroundAddress? now a]
    obtain ⟨hresult, hevents, hafter⟩ := ih _ (h.withRanges (s.ranges.searchAddress s.now a).2)
    exact ⟨hresult, congrArg _ hevents, hafter⟩
  | @findNetwork n next searches _ ih =>
    simp only [run, events, h.searched searches fun c now => c.searchNetwork now n,
      h.searched searches fun c now => c.aroundNetwork? now n]
    obtain ⟨hresult, hevents, hafter⟩ := ih _ (h.withRanges (s.ranges.searchNetwork s.now n).2)
    exact ⟨hresult, congrArg _ hevents, hafter⟩
  | @ask r next _ ih =>
    simp only [run, events, h.answered]
    cases world s.requests r with
    | none => exact ⟨rfl, rfl, h.ask r⟩
    | some answer =>
      obtain ⟨hresult, hevents, hafter⟩ := ih answer (h.ask r)
      exact ⟨hresult, congrArg _ hevents, hafter⟩
  | @remember n allocation ttl next searches _ ih =>
    simp only [run, events, h.searched searches fun c now => c.store now n allocation ttl]
    obtain ⟨hresult, hevents, hafter⟩ := ih (h.withRanges (s.ranges.store s.now n allocation ttl))
    exact ⟨hresult, congrArg _ hevents, hafter⟩
  | keep _ ih =>
    simp only [run, events]
    obtain ⟨hresult, hevents, hafter⟩ := ih (h.keep _ _)
    exact ⟨hresult, congrArg _ hevents, hafter⟩

/-- Where the key holds the same at first, or something is kept under it on the way, it holds the same in the end. -/
theorem find?_run_alike (hp : p.Within f) (h : f.Alike world s s')
    (hkept : s'.results.find? f.key = s.results.find? f.key ∨ .kept f.key ∈ p.events world s) :
    (p.run world s').2.results.find? f.key = (p.run world s).2.results.find? f.key := by
  induction hp generalizing s s' with
  | done a => exact hkept.resolve_right List.not_mem_nil
  | lookUp _ ih =>
    simp only [run, h.lookup_fst]
    refine ih _ h.lookUp (hkept.imp (fun hsame => ?_) fun hmem => by simpa [events] using hmem)
    rw [h.now]
    exact (Cache.Results.lookup_congr hsame).2
  | @findAddress a next searches _ ih =>
    simp only [run, h.searched searches fun c now => c.searchAddress now a]
    exact ih _ (h.withRanges (s.ranges.searchAddress s.now a).2)
      (hkept.imp_right fun hmem => by simpa [events] using hmem)
  | @findNetwork n next searches _ ih =>
    simp only [run, h.searched searches fun c now => c.searchNetwork now n]
    exact ih _ (h.withRanges (s.ranges.searchNetwork s.now n).2)
      (hkept.imp_right fun hmem => by simpa [events] using hmem)
  | @ask r next _ ih =>
    simp only [run, h.answered]
    simp only [events] at hkept
    cases hw : world s.requests r with
    | none => simpa [hw] using hkept
    | some answer => exact ih answer (h.ask r) (hkept.imp_right fun hmem => by simpa [hw] using hmem)
  | @remember n allocation ttl next searches _ ih =>
    simp only [run, h.searched searches fun c now => c.store now n allocation ttl]
    exact ih (h.withRanges (s.ranges.store s.now n allocation ttl))
      (hkept.imp_right fun hmem => by simpa [events] using hmem)
  | @keep outcome ttl next _ ih =>
    refine ih (h.keep outcome ttl) ?_
    simp only [Cache.Results.find?_settle, h.now]
    by_cases hcacheable : outcome.isCacheable
    · exact .inl (by simp [hcacheable])
    · simpa [events, hcacheable] using hkept

theorem eq_key_of_kept (hp : p.Within f) (h : .kept k ∈ p.events world s) : k = f.key := by
  induction hp generalizing s with
  | done a => cases h
  | lookUp _ ih => exact ih _ (by simpa [events] using h)
  | findAddress _ _ ih => exact ih _ (by simpa [events] using h)
  | findNetwork _ _ ih => exact ih _ (by simpa [events] using h)
  | @ask r next _ ih =>
    cases hw : world s.requests r with
    | none => simp [events, hw] at h
    | some answer => exact ih answer (by simpa [events, hw] using h)
  | remember _ _ ih => exact ih (by simpa [events] using h)
  | @keep outcome ttl next _ ih =>
    rcases List.mem_append.mp h with hkept | hrest
    · split at hkept
      · exact Event.kept.inj (List.mem_singleton.mp hkept)
      · cases hkept
    · exact ih hrest

/-- A key that is outside, or inside but not looked up, holds the same in the end unless something is kept under it. -/
theorem find?_run_of_not_kept (hp : p.Within f) (hk : k ≠ f.key ∨ f.ignoreCache = true)
    (h : .kept k ∉ p.events world s) : (p.run world s).2.results.find? k = s.results.find? k := by
  induction hp generalizing s with
  | done a => rfl
  | lookUp _ ih =>
    simp only [events, List.mem_cons, not_or] at h
    refine (ih _ (s := { s with results := _ }) h.2).trans ?_
    rcases hk with hk | hk
    · exact Cache.Results.find?_lookup_of_ne hk
    · rw [hk]
      rfl
  | findAddress _ _ ih =>
    simp only [events, List.mem_cons, not_or] at h
    exact ih _ (s := { s with ranges := _ }) h.2
  | findNetwork _ _ ih =>
    simp only [events, List.mem_cons, not_or] at h
    exact ih _ (s := { s with ranges := _ }) h.2
  | @ask r next _ ih =>
    simp only [events, List.mem_cons, not_or] at h
    simp only [run]
    cases hw : world s.requests r with
    | none => rfl
    | some answer =>
      simp only [hw] at h
      exact ih answer (s := { s with requests := _ }) h.2
  | remember _ _ ih =>
    simp only [events, List.mem_cons, not_or] at h
    exact ih (s := { s with ranges := _ }) h.2
  | @keep outcome ttl next _ ih =>
    simp only [events, List.mem_append, not_or] at h
    refine (ih (s := { s with results := _ }) h.2).trans ?_
    rw [Cache.Results.find?_settle, if_neg]
    rintro ⟨rfl, hcacheable⟩
    simp [hcacheable] at h

theorem ranges_run (hp : p.Within f) (hf : f.searches = false) : (p.run world s).2.ranges = s.ranges := by
  induction hp generalizing s with
  | done a => rfl
  | lookUp _ ih => exact ih _
  | findAddress searches => rw [hf] at searches; cases searches
  | findNetwork searches => rw [hf] at searches; cases searches
  | @ask r next _ ih =>
    simp only [run]
    cases world s.requests r with
    | none => rfl
    | some answer => exact ih answer
  | remember searches => rw [hf] at searches; cases searches
  | keep _ ih => exact ih

theorem ranges_run_alike (hp : p.Within f) (h : f.Alike world s s') (hranges : s'.ranges = s.ranges) :
    (p.run world s').2.ranges = (p.run world s).2.ranges := by
  cases hf : f.searches with
  | true => exact (hp.run_alike h).2.2.ranges hf
  | false => rw [hp.ranges_run hf, hp.ranges_run hf, hranges]

end Within
end Plan

theorem within_resolve (h : f.searches = true) (t : Task) : (resolve t).run.Within f := by
  cases hparse : Target.parse? t.text with
  | none =>
    rw [resolve_malformed hparse]
    exact .done _
  | some target =>
    rw [resolve_eq hparse]
    refine Plan.Within.bind ?_ fun found => ?_
    · cases target with
      | address a => exact .findAddress h fun _ => .done _
      | network n => exact .findNetwork h fun _ => .done _
    · cases found with
      | some n => exact .done _
      | none =>
        refine .ask fun answer => Plan.Within.bind ?_ fun result => ?_
        · unfold accept
          split
          · exact .done _
          · exact .remember h (.done _)
        · cases result <;> exact .done _

theorem Task.within_serve (c : Config) (t : Task) :
    (t.serve (t.service c)).Within ⟨t.key, t.ignoreCache, decide (t.type = .ipNetwork ∧ t.method = .search)⟩ := by
  cases hservice : t.service c with
  | answer o => exact .done o
  | replay m =>
    refine .lookUp fun found => ?_
    cases found <;> exact .done _
  | resolve r missing =>
    have hresolution : r.run.Within ⟨t.key, t.ignoreCache, decide (t.type = .ipNetwork ∧ t.method = .search)⟩ := by
      rcases asksOnly_of_service hservice with hr | ⟨htype, hmethod, rfl, -⟩
      · exact .of_asksOnly hr
      · exact within_resolve (decide_eq_true ⟨htype, hmethod⟩) t
    refine Plan.Within.bind (.lookUp fun found => ?_) fun outcome => .done _
    cases found with
    | some outcome => exact .done outcome
    | none => exact hresolution.bind fun result => .keep (.done _)

/-- What an execution may use: what is kept under the identity of its query, and the allocations when it searches for a
network. -/
def footprint (q : Query) (ignoreCache : Bool) : Footprint := ⟨q.identity, ignoreCache, decide q.IsNetworkSearch⟩

theorem execute_within (c : Config) (q : Query) (ignoreCache : Bool) :
    (execute c q ignoreCache).Within (footprint q ignoreCache) := by
  cases htype : ItemType.ofName? q.type with
  | none =>
    obtain ⟨o, ho⟩ := execute_unknown c htype
    rw [ho]
    exact .done o
  | some type =>
    rw [execute_known c htype]
    have hfootprint : footprint q ignoreCache = ⟨(Task.ofQuery c type q ignoreCache).key, ignoreCache,
        decide (type = .ipNetwork ∧ q.method = .search)⟩ := by
      simp [footprint, Query.identity, Query.IsNetworkSearch, htype, Task.key, Task.ofQuery,
        ItemType.name_of_ofName? htype]
    rw [hfootprint]
    exact Task.within_serve c (Task.ofQuery c type q ignoreCache)

end Resolve
end AssetGraph

import AssetGraph.Proofs.Cache.Ranges
import AssetGraph.Resolve.Plan

/-!
# What a plan does

The effects of carrying out a plan, in order, and how plans, their results and their effects compose. The clock stands
still while a plan is carried out, and the requests sent are the requests among the effects.
-/
namespace AssetGraph.Resolve

/-- One effect of carrying out a plan. `found` tells what a lookup or a search gave. -/
inductive Event where
  | lookedUp (key : Identity) (found : Bool)
  | searched (found : Option Network)
  | asked (request : Request)
  | remembered (network : Network)
  | kept (key : Identity)
  deriving DecidableEq

def Event.request? : Event → Option Request
  | asked request => some request
  | _ => none

namespace Plan

variable {α β γ : Type} {world : World}

/-- The effects of carrying out a plan. An outcome that may not be kept has no effect. -/
def events (world : World) : Plan α → State → List Event
  | done _, _ => []
  | lookUp key ignoreCache next, s =>
    let (outcome, results) := s.results.lookup s.now key ignoreCache
    .lookedUp key outcome.isSome :: (next outcome).events world { s with results }
  | findAddress a next, s =>
    let (found, ranges) := s.ranges.searchAddress s.now a
    .searched ((s.ranges.aroundAddress? s.now a).map Cache.Range.network) ::
      (next found).events world { s with ranges }
  | findNetwork n next, s =>
    let (found, ranges) := s.ranges.searchNetwork s.now n
    .searched ((s.ranges.aroundNetwork? s.now n).map Cache.Range.network) ::
      (next found).events world { s with ranges }
  | ask r next, s =>
    .asked r ::
      match world s.requests r with
      | some answer => (next answer).events world { s with requests := s.requests ++ [r] }
      | none => []
  | remember n allocation ttl next, s =>
    .remembered n :: next.events world { s with ranges := s.ranges.store s.now n allocation ttl }
  | keep key outcome ttl next, s =>
    (if outcome.isCacheable then [.kept key] else []) ++
      next.events world { s with results := s.results.settle s.now key outcome ttl }

theorem bind_done (p : Plan α) : p.bind done = p := by
  induction p with
  | done a => rfl
  | lookUp key ignoreCache next ih => simp only [bind, ih]
  | findAddress a next ih => simp only [bind, ih]
  | findNetwork n next ih => simp only [bind, ih]
  | ask r next ih => simp only [bind, ih]
  | remember n allocation ttl next ih => simp only [bind, ih]
  | keep key outcome ttl next ih => simp only [bind, ih]

theorem bind_assoc (p : Plan α) (f : α → Plan β) (g : β → Plan γ) :
    (p.bind f).bind g = p.bind fun a => (f a).bind g := by
  induction p with
  | done a => rfl
  | lookUp key ignoreCache next ih => simp only [bind, ih]
  | findAddress a next ih => simp only [bind, ih]
  | findNetwork n next ih => simp only [bind, ih]
  | ask r next ih => simp only [bind, ih]
  | remember n allocation ttl next ih => simp only [bind, ih]
  | keep key outcome ttl next ih => simp only [bind, ih]

theorem run_bind (p : Plan α) (f : α → Plan β) (s : State) :
    (p.bind f).run world s =
      match p.run world s with
      | (some a, s') => (f a).run world s'
      | (none, s') => (none, s') := by
  induction p generalizing s with
  | done a => rfl
  | lookUp key ignoreCache next ih => simp only [bind, run, ih]
  | findAddress a next ih => simp only [bind, run, ih]
  | findNetwork n next ih => simp only [bind, run, ih]
  | ask r next ih =>
    simp only [bind, run]
    cases world s.requests r with
    | some answer => exact ih answer _
    | none => rfl
  | remember n allocation ttl next ih => simp only [bind, run, ih]
  | keep key outcome ttl next ih => simp only [bind, run, ih]

theorem events_bind (p : Plan α) (f : α → Plan β) (s : State) :
    (p.bind f).events world s = p.events world s ++
      match p.run world s with
      | (some a, s') => (f a).events world s'
      | (none, _) => [] := by
  induction p generalizing s with
  | done a => rfl
  | lookUp key ignoreCache next ih => simp only [bind, events, run, ih, List.cons_append]
  | findAddress a next ih => simp only [bind, events, run, ih, List.cons_append]
  | findNetwork n next ih => simp only [bind, events, run, ih, List.cons_append]
  | ask r next ih =>
    simp only [bind, events, run]
    cases world s.requests r with
    | some answer => simp only [ih, List.cons_append]
    | none => rfl
  | remember n allocation ttl next ih => simp only [bind, events, run, ih, List.cons_append]
  | keep key outcome ttl next ih => simp only [bind, events, run, ih, List.append_assoc]

@[simp] theorem now_run (p : Plan α) (s : State) : (p.run world s).2.now = s.now := by
  induction p generalizing s with
  | done a => rfl
  | lookUp key ignoreCache next ih => simp only [run, ih]
  | findAddress a next ih => simp only [run, ih]
  | findNetwork n next ih => simp only [run, ih]
  | ask r next ih =>
    simp only [run]
    cases world s.requests r with
    | some answer => exact ih answer _
    | none => rfl
  | remember n allocation ttl next ih => simp only [run, ih]
  | keep key outcome ttl next ih => simp only [run, ih]

theorem requests_run (p : Plan α) (s : State) :
    (p.run world s).2.requests = s.requests ++ (p.events world s).filterMap Event.request? := by
  induction p generalizing s with
  | done a => simp [run, events]
  | lookUp key ignoreCache next ih => simp only [run, events, ih, List.filterMap_cons, Event.request?]
  | findAddress a next ih => simp only [run, events, ih, List.filterMap_cons, Event.request?]
  | findNetwork n next ih => simp only [run, events, ih, List.filterMap_cons, Event.request?]
  | ask r next ih =>
    simp only [run, events]
    cases world s.requests r with
    | some answer => simp [ih, Event.request?]
    | none => simp [Event.request?]
  | remember n allocation ttl next ih => simp only [run, events, ih, List.filterMap_cons, Event.request?]
  | keep key outcome ttl next ih =>
    simp only [run, events, ih, List.filterMap_append]
    split <;> rfl

end Plan
end AssetGraph.Resolve

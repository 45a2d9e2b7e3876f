import AssetGraph.Proofs.Resolve.History
import Mathlib.Logic.Function.Basic

/-!
# Where answers come from

A ledger beside the caches: for every kept outcome and every remembered allocation, when the responses behind it were
received. It is kept from the effects of executions alone, and changes nothing in them.
-/
namespace AssetGraph.Resolve

/-- When the responses behind what the caches hold were received. -/
structure Origins where
  outcomes : Identity → List Nat := fun _ => []
  allocations : Network → List Nat := fun _ => []

/-- The origins, and when the responses that one execution has used so far were received. -/
structure Ledger where
  origins : Origins
  used : List Nat := []

namespace Ledger

variable {l : Ledger} {now : Nat} {events : List Event}

/-- Notes an effect. What is kept or remembered comes from all the responses used before. -/
def note (now : Nat) (l : Ledger) : Event → Ledger
  | .asked _ => { l with used := l.used ++ [now] }
  | .lookedUp key found => if found then { l with used := l.used ++ l.origins.outcomes key } else l
  | .searched none => l
  | .searched (some n) => { l with used := l.used ++ l.origins.allocations n }
  | .remembered n =>
    { l with origins := { l.origins with allocations := Function.update l.origins.allocations n l.used } }
  | .kept key => { l with origins := { l.origins with outcomes := Function.update l.origins.outcomes key l.used } }

def noteAll (now : Nat) (events : List Event) (l : Ledger) : Ledger := events.foldl (note now) l

theorem noteAll_cons (e : Event) : noteAll now (e :: events) l = noteAll now events (note now l e) := rfl

theorem noteAll_append (first second : List Event) :
    noteAll now (first ++ second) l = noteAll now second (noteAll now first l) := List.foldl_append

theorem noteAll_asked (h : ∀ e ∈ events, ∃ r, e = .asked r) :
    (noteAll now events l).origins = l.origins ∧ ∀ m ∈ (noteAll now events l).used, m ∈ l.used ∨ m = now := by
  induction events generalizing l with
  | nil => exact ⟨rfl, fun m hm => .inl hm⟩
  | cons e events ih =>
    obtain ⟨r, rfl⟩ := h e List.mem_cons_self
    have hrest := ih (l := note now l (.asked r)) fun e he => h e (List.mem_cons_of_mem _ he)
    rw [noteAll_cons]
    refine ⟨hrest.1, fun m hm => ?_⟩
    rcases hrest.2 m hm with hused | hnow
    · rcases List.mem_append.mp hused with hold | hnew
      · exact .inl hold
      · exact .inr (List.mem_singleton.mp hnew)
    · exact .inr hnow

end Ledger

structure Traced where
  state : State
  origins : Origins := {}

namespace Traced

def ledger (c : Config) (world : World) (x : Traced) (q : Query) (ignoreCache : Bool) : Ledger :=
  Ledger.noteAll x.state.now ((execute c q ignoreCache).events world x.state) ⟨x.origins, []⟩

def sources (c : Config) (world : World) (x : Traced) (q : Query) (ignoreCache : Bool) : List Nat :=
  (x.ledger c world q ignoreCache).used

def step (c : Config) (world : World) (x : Traced) (e : Step) : Traced where
  state := e.apply c world x.state
  origins := match e with
    | .execute q ignoreCache => (x.ledger c world q ignoreCache).origins
    | .advance _ => x.origins

def after (c : Config) (world : World) (start : Nat) (steps : List Step) : Traced :=
  steps.foldl (step c world) { state := { now := start } }

theorem state_after (c : Config) (world : World) (start : Nat) (steps : List Step) :
    (after c world start steps).state = Resolve.after c world steps { now := start } := by
  have hfold : ∀ x : Traced, (steps.foldl (step c world) x).state = Resolve.after c world steps x.state := by
    induction steps with
    | nil => exact fun _ => rfl
    | cons e steps ih => exact fun x => ih (x.step c world e)
  exact hfold _

/-- What holds of empty caches and is kept by every step holds after all steps. -/
theorem after_induction {c : Config} {world : World} {p : Traced → Prop} {start : Nat} {steps : List Step}
    (hfresh : p { state := { now := start } }) (hstep : ∀ x e, p x → p (x.step c world e)) :
    p (after c world start steps) := by
  have hfold : ∀ x : Traced, p x → p (steps.foldl (step c world) x) := by
    induction steps with
    | nil => exact fun _ hx => hx
    | cons e steps ih => exact fun x hx => ih (x.step c world e) (hstep x e hx)
  exact hfold _ hfresh

end Traced
end AssetGraph.Resolve

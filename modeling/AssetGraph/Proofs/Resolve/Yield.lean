import AssetGraph.Proofs.Resolve.Search

/-!
# What a plan can come to

A plan yields a property when every result that it can come to has it, whatever the caches hold and the world answers.
Plans yield what their parts yield, and what a question yields says only which causes of failure it can have.
-/
namespace AssetGraph.Resolve

variable {α β : Type}

namespace Plan

/-- Whatever the caches hold and the world answers, the plan comes only to results with a property. -/
def Yields (p : Plan α) (P : α → Prop) : Prop :=
  ∀ (world : World) (s : State) (a : α), (p.run world s).1 = some a → P a

variable {P P' : α → Prop} {Q : β → Prop} {p : Plan α} {f : α → Plan β} {a : α}

namespace Yields

theorem done (h : P a) : (Plan.done a).Yields P := by
  intro world s b hb
  cases hb
  exact h

theorem ask {r : Request} {next : r.Answer → Plan α} (h : ∀ answer, (next answer).Yields P) :
    (Plan.ask r next).Yields P := by
  intro world s a ha
  simp only [run] at ha
  cases hw : world s.requests r with
  | none =>
    rw [hw] at ha
    cases ha
  | some answer =>
    rw [hw] at ha
    exact h answer world _ a ha

theorem bind (hp : p.Yields P) (hf : ∀ a, P a → (f a).Yields Q) : (p.bind f).Yields Q := by
  intro world s b hb
  rw [run_bind] at hb
  rcases hrun : p.run world s with ⟨_ | a, s'⟩
  · rw [hrun] at hb
    cases hb
  · rw [hrun] at hb
    exact hf a (hp world s a (by rw [hrun])) world s' b hb

theorem mono (hp : p.Yields P) (h : ∀ a, P a → P' a) : p.Yields P' :=
  fun world s a ha => h a (hp world s a ha)

end Yields
end Plan

namespace Resolution

def Yields (x : Resolution α) (P : α → Prop) (F : Cause → Prop) : Prop :=
  Plan.Yields x.run fun
    | .ok a => P a
    | .error c => F c

variable {P P' : α → Prop} {Q : β → Prop} {F F' : Cause → Prop} {x : Resolution α}

namespace Yields

theorem pure {a : α} (h : P a) : Yields (Pure.pure a) P F := Plan.Yields.done h

theorem throw {c : Cause} (h : F c) : Yields (MonadExcept.throw c : Resolution α) P F := Plan.Yields.done h

theorem bind {f : α → Resolution β} (hx : Yields x P F) (hf : ∀ a, P a → Yields (f a) Q F) :
    Yields (x >>= f) Q F := by
  unfold Yields
  rw [Resolution.run_bind]
  refine Plan.Yields.bind hx fun result hresult => ?_
  cases result with
  | ok a => exact hf a hresult
  | error c => exact .done hresult

theorem mono (hx : Yields x P F) (hP : ∀ a, P a → P' a) (hF : ∀ c, F c → F' c) : Yields x P' F' := by
  refine Plan.Yields.mono hx fun result hresult => ?_
  cases result with
  | ok a => exact hP a hresult
  | error c => exact hF c hresult

/-- What a resolution finds is the same whatever is said of its failures. -/
theorem found (hx : Yields x P F) : Yields x P fun _ => True := hx.mono (fun _ h => h) fun _ _ => trivial

theorem map {f : α → β} (hx : Yields x P F) (hf : ∀ a, P a → Q (f a)) : Yields (f <$> x) Q F :=
  hx.bind fun a ha => .pure (hf a ha)

end Yields
end Resolution

open Resolution

theorem yields_askRegistry (r : Rdap.Request) :
    (askRegistry r).Yields (fun _ => True) fun c => c.kind ≠ .malformedInput := by
  refine Plan.Yields.ask fun answer => ?_
  cases answer with
  | ok response => exact .done trivial
  | error e =>
    refine .done ?_
    simp only [Cause.kind]
    split <;> exact nofun

theorem yields_askNameServer (name : String) (type : Dns.RecordType) :
    (askNameServer name type).Yields (fun _ => True) fun c => c.kind ≠ .malformedInput := by
  refine Plan.Yields.ask fun answer => ?_
  cases answer with
  | ok records => exact .done trivial
  | error e => exact .done nofun

theorem yields_askWebServer (url : String) : (askWebServer url).Yields (fun _ => True) fun _ => True := by
  refine Plan.Yields.ask fun answer => ?_
  cases answer <;> exact .done trivial

theorem yields_objectOf (expected : String) (select : Rdap.Object → Option α) {missing : Cause}
    (hmissing : missing.kind ≠ .malformedInput) (r : Rdap.Response) :
    (objectOf expected select missing r).Yields (fun _ => True) fun c => c.kind ≠ .malformedInput := by
  unfold objectOf
  split
  · exact .throw hmissing
  · split
    · exact .pure trivial
    · exact .throw nofun

end AssetGraph.Resolve

import AssetGraph.Proofs.Resolve.Event
import AssetGraph.Resolve.Execute

/-!
# Plans that only ask

Every resolution but the search for a network does nothing but ask the world outside. Such a plan leaves both caches
alone, and against a client that gives each request one answer it comes to the same in every state.
-/
namespace AssetGraph.Resolve

/-- Clients whose answer to a request does not depend on anything else. -/
abbrev Client := (r : Request) → r.Answer

def Client.world (client : Client) : World := fun _ r => some (client r)

/-- The client of a registry that reports one allocation whatever it is asked, and of silent other sources. -/
def Client.ofAllocation (n : Rdap.IpNetwork) : Client
  | .rdap _ => Except.ok ⟨some (.ipNetwork n), []⟩
  | .dns _ => Except.ok ([] : List Dns.Record)
  | .http url => Except.error (Http.ClientError.invalidUrl url)

namespace Plan

variable {α β : Type} {world : World} {client : Client}

/-- What a plan comes to without caches: nothing is found, and nothing kept. -/
def evaluate (client : Client) : Plan α → α
  | done a => a
  | lookUp _ _ next => (next none).evaluate client
  | findAddress _ next => (next none).evaluate client
  | findNetwork _ next => (next none).evaluate client
  | ask r next => (next (client r)).evaluate client
  | remember _ _ _ next => next.evaluate client
  | keep _ _ _ next => next.evaluate client

theorem evaluate_bind (p : Plan α) (f : α → Plan β) :
    (p.bind f).evaluate client = (f (p.evaluate client)).evaluate client := by
  induction p with
  | done a => rfl
  | lookUp key ignoreCache next ih => exact ih none
  | findAddress a next ih => exact ih none
  | findNetwork n next ih => exact ih none
  | ask r next ih => exact ih (client r)
  | remember n allocation ttl next ih => exact ih
  | keep key outcome ttl next ih => exact ih

inductive AsksOnly : Plan α → Prop
  | done (a : α) : AsksOnly (.done a)
  | ask {r : Request} {next : r.Answer → Plan α} (rest : ∀ answer, AsksOnly (next answer)) :
      AsksOnly (.ask r next)

namespace AsksOnly

theorem bind {p : Plan α} {f : α → Plan β} (hp : p.AsksOnly) (hf : ∀ a, (f a).AsksOnly) : (p.bind f).AsksOnly := by
  induction hp with
  | done a => exact hf a
  | ask _ ih => exact .ask ih

theorem run_snd {p : Plan α} (hp : p.AsksOnly) (s : State) :
    (p.run world s).2 = { s with requests := (p.run world s).2.requests } := by
  induction hp generalizing s with
  | done a => rfl
  | @ask r next _ ih =>
    simp only [run]
    cases world s.requests r with
    | some answer => exact ih answer _
    | none => rfl

theorem mem_events {p : Plan α} (hp : p.AsksOnly) {s : State} {e : Event} (he : e ∈ p.events world s) :
    ∃ r, e = .asked r := by
  induction hp generalizing s with
  | done a => simp [events] at he
  | @ask r next _ ih =>
    simp only [events, List.mem_cons] at he
    rcases he with rfl | he
    · exact ⟨r, rfl⟩
    · cases hw : world s.requests r with
      | some answer =>
        rw [hw] at he
        exact ih answer he
      | none =>
        rw [hw] at he
        cases he

theorem run_fst {p : Plan α} (hp : p.AsksOnly) (s : State) :
    (p.run client.world s).1 = some (p.evaluate client) := by
  induction hp generalizing s with
  | done a => rfl
  | @ask r next _ ih => exact ih (client r) _

end AsksOnly
end Plan

namespace Resolution

variable {α β : Type}

def AsksOnly (x : Resolution α) : Prop := Plan.AsksOnly x.run

theorem AsksOnly.pure (a : α) : AsksOnly (Pure.pure a) := .done _

theorem AsksOnly.throw (c : Cause) : AsksOnly (α := α) (MonadExcept.throw c) := .done _

theorem AsksOnly.bind {x : Resolution α} {f : α → Resolution β} (hx : AsksOnly x) (hf : ∀ a, AsksOnly (f a)) :
    AsksOnly (x >>= f) := by
  apply Plan.AsksOnly.bind hx
  intro result
  cases result with
  | ok a => exact hf a
  | error c => exact .done _

theorem AsksOnly.map {x : Resolution α} (hx : AsksOnly x) (f : α → β) : AsksOnly (f <$> x) := by
  apply Plan.AsksOnly.bind hx
  intro result
  cases result <;> exact .done _

end Resolution

open Resolution

theorem asksOnly_askRegistry (r : Rdap.Request) : AsksOnly (askRegistry r) := by
  refine Plan.AsksOnly.ask fun answer => ?_
  cases answer <;> exact .done _

theorem asksOnly_askNameServer (name : String) (type : Dns.RecordType) : AsksOnly (askNameServer name type) := by
  refine Plan.AsksOnly.ask fun answer => ?_
  cases answer <;> exact .done _

theorem asksOnly_askWebServer (url : String) : AsksOnly (askWebServer url) := by
  refine Plan.AsksOnly.ask fun answer => ?_
  cases answer <;> exact .done _

theorem asksOnly_objectOf {α : Type} (expected : String) (select : Rdap.Object → Option α) (missing : Cause)
    (r : Rdap.Response) : AsksOnly (objectOf expected select missing r) := by
  unfold objectOf
  split
  · exact .throw missing
  · split
    · exact .pure _
    · exact .throw _

theorem asksOnly_urlOf (expected : Rdap.Kind) (text : String) : AsksOnly (urlOf expected text) := by
  unfold urlOf
  split
  · exact .throw _
  · split
    · exact .pure _
    · exact .throw _

theorem asksOnly_walk (name : String) (candidates : List String) : AsksOnly (Domains.walk name candidates) := by
  induction candidates with
  | nil => exact .throw _
  | cons candidate rest ih =>
    refine Plan.AsksOnly.ask fun answer => ?_
    cases answer with
    | error e => exact ih
    | ok response => exact (asksOnly_objectOf ..).bind fun _ => .pure _

theorem asksOnly_domain (t : Task) : AsksOnly (Domains.resolve t) :=
  (asksOnly_walk ..).bind fun _ => .pure _

theorem asksOnly_entity (t : Task) (r : Rdap.Request) : AsksOnly (Entities.resolve t r) :=
  (asksOnly_askRegistry r).bind fun _ => (asksOnly_objectOf ..).bind fun _ => .pure _

theorem asksOnly_nameserver (t : Task) : AsksOnly (Nameservers.resolve t) :=
  (asksOnly_urlOf ..).bind fun _ => (asksOnly_askRegistry _).bind fun _ => (asksOnly_objectOf ..).bind fun _ => .pure _

theorem asksOnly_autnum (t : Task) : AsksOnly (Autnums.resolve t) :=
  (asksOnly_askRegistry _).bind fun _ => (asksOnly_objectOf ..).bind fun _ => .pure _

theorem asksOnly_forward (text : String) : AsksOnly (Names.forward text) := by
  refine (asksOnly_askNameServer ..).bind fun v4 => (asksOnly_askNameServer ..).bind fun v6 => ?_
  split
  · exact .throw _
  · exact .pure _

theorem asksOnly_forwardAll (records : List Dns.Record) : AsksOnly (Names.forwardAll records) := by
  induction records with
  | nil => exact .pure _
  | cons r rest ih =>
    unfold Names.forwardAll
    split
    · exact (asksOnly_forward _).bind fun _ => ih.bind fun _ => .pure _
    · exact ih

theorem asksOnly_reverse (a : Address) : AsksOnly (Names.reverse a) :=
  (asksOnly_askNameServer ..).bind fun _ => asksOnly_forwardAll _

end AssetGraph.Resolve

import AssetGraph.Proofs.Resolve.Names
import AssetGraph.Proofs.Resolve.Replay

/-!
# Getting names

Getting a name comes to the first item of a search for it, and to the same error when there is one. Where the search succeeds without
items, there is nothing to get. Both ask the same. When each question always has one answer, what was got is given again without
asking for the lifetime of names, whatever is executed in between: getting the name past the cache keeps the same outcome for longer.
-/
namespace AssetGraph.Resolve.Names

open Dns (Record)

variable {c : Config} {world : World} {s : State} {text : String} {ignoreCache : Bool}

/-- Name servers that always answer a question in the same way. -/
abbrev NameClient := Dns.Question → Except Dns.ClientError (List Record)

variable {client : NameClient}

/-- Whether a world leaves every question about names to a client. -/
def Consults (world : World) (client : NameClient) : Prop := ∀ sent q, world sent (.dns q) = some (client q)

/-- The questions that a client is asked for a name: the second one only after an answer to the first. -/
def questionsTo (client : NameClient) (name : String) : List Request :=
  match client ⟨Dns.qualified name, .a⟩ with
  | .ok _ => questions name
  | .error _ => [.dns ⟨Dns.qualified name, .a⟩]

def resultFrom (client : NameClient) (name : String) : Except Cause (List Item) :=
  match client ⟨Dns.qualified name, .a⟩, client ⟨Dns.qualified name, .aaaa⟩ with
  | .ok v4, .ok v6 => resultOf name (v4 ++ v6)
  | .ok _, .error e => .error (.nameServer e)
  | .error e, _ => .error (.nameServer e)

theorem run_forward_of_consults (hclient : Consults world client) (name : String) (s : State) :
    (forward name).run.run world s = (some (resultFrom client name), s.sending (questionsTo client name)) := by
  have hv4 := hclient s.requests ⟨Dns.qualified name, .a⟩
  have hv6 := hclient (s.sending [.dns ⟨Dns.qualified name, .a⟩]).requests ⟨Dns.qualified name, .aaaa⟩
  rw [forward_eq, resultFrom, questionsTo]
  cases hfirst : client ⟨Dns.qualified name, .a⟩ with
  | error e =>
    rw [hfirst] at hv4
    rw [run_ask_of_error hv4]
  | ok v4 =>
    rw [hfirst] at hv4
    rw [run_ask_of_ok hv4]
    cases hsecond : client ⟨Dns.qualified name, .aaaa⟩ with
    | error e =>
      rw [hsecond] at hv6
      rw [run_ask_of_error hv6, ← State.sending_append]
      rfl
    | ok v6 =>
      rw [hsecond] at hv6
      rw [run_ask_of_ok hv6, ← State.sending_append]
      rfl

/-- What getting a name reports, by what a search for it does: its first item. -/
def firstOf (text : String) : Outcome → Outcome
  | .ok (item :: _) => .ok [item]
  | .ok [] => .error {
      kind := .notFound
      message := "No DNS records found for " ++ text
      scope := some "global"
      itemType := some "dns"
      source := some "stdlib-dns" }
  | .error e => .error e

theorem run_first_of_consults (hclient : Consults world client) (name : String) (s : State) :
    (List.take 1 <$> forward name).run.run world s =
      (some ((resultFrom client name).map (List.take 1)), s.sending (questionsTo client name)) := by
  rw [Resolution.run_map, Plan.run_bind, run_forward_of_consults hclient]
  rfl

/-- Whatever a name comes to may be kept: items, that there is nothing, and that a name server failed. -/
theorem isCacheable_first (t : Task) (client : NameClient) (name : String) :
    (t.outcome ((resultFrom client name).map (List.take 1))).isCacheable := by
  unfold resultFrom resultOf
  split
  · split <;> rfl
  · rfl
  · rfl

theorem service_get (hname : Address.parse? text = none) :
    (Task.ofQuery c .dns ⟨"dns", .get, text, "global"⟩ ignoreCache).service c =
      .resolve (List.take 1 <$> forward text) (some (.nothingFound "DNS records" text)) := by
  have htable : (Task.ofQuery c .dns ⟨"dns", .get, text, "global"⟩ ignoreCache).service c =
      if (Address.parse? text).isSome then
        (Task.ofQuery c .dns ⟨"dns", .get, text, "global"⟩ ignoreCache).refuse (.alreadyAnAddress text)
      else .resolve (List.take 1 <$> forward text) (some (.nothingFound "DNS records" text)) := rfl
  rw [htable, hname]
  rfl

theorem run_search_past (hclient : Consults world client) (hname : Address.parse? text = none) (s : State) :
    let search := (execute c ⟨"dns", .search, text, "global"⟩ true).run world s
    search.1 = some (ending (resultFrom client text)) ∧ search.2.requests = s.requests ++ questionsTo client text := by
  intro search
  let t := Task.ofQuery c .dns ⟨"dns", .search, text, "global"⟩ true
  have hresolution : (resolution text).run.run world (t.afterLookup s) =
      (some (resultFrom client text), (t.afterLookup s).sending (questionsTo client text)) := by
    rw [resolution, hname]
    exact run_forward_of_consults hclient text _
  have hsearch : search = _ :=
    Task.run_execute_resolved (ItemType.ofName?_name .dns) (service_eq (.inl hname)) rfl hresolution
  rw [hsearch]
  refine ⟨?_, rfl⟩
  cases resultFrom client text <;> rfl

theorem run_get_past (hclient : Consults world client) (hname : Address.parse? text = none) (s : State) :
    let get := (execute c ⟨"dns", .get, text, "global"⟩ true).run world s
    get.1 = some (firstOf text (ending (resultFrom client text))) ∧
      get.2.requests = s.requests ++ questionsTo client text := by
  intro get
  have hget : get = _ :=
    Task.run_execute_resolved (ItemType.ofName?_name .dns) (service_get hname) rfl (run_first_of_consults hclient text _)
  rw [hget]
  refine ⟨?_, rfl⟩
  rcases resultFrom client text with e | _ | ⟨item, rest⟩ <;> rfl

/-- Getting a name past the cache asks the questions that a search for it past the cache asks, and reports the first item that the
search finds, that there is nothing where the search finds no items, and the error of the search where that fails. Until its lifetime is
over the outcome is given again without asking, whatever is executed in between. -/
theorem get_agrees_with_search (hclient : Consults world client) (hname : Address.parse? text = none) (s s' : State)
    (steps : List Step) :
    let search := (execute c ⟨"dns", .search, text, "global"⟩ true).run world s
    let get := (execute c ⟨"dns", .get, text, "global"⟩ true).run world s'
    let later := after c world steps get.2
    let again := (execute c ⟨"dns", .get, text, "global"⟩ false).run world later
    (∃ outcome, search.1 = some outcome ∧ get.1 = some (firstOf text outcome)) ∧
    search.2.requests = s.requests ++ questionsTo client text ∧
    get.2.requests = s'.requests ++ questionsTo client text ∧
    (later.now < get.2.now + lifetime c .dns → again.1 = get.1 ∧ again.2.requests = later.requests) := by
  intro search get later again
  obtain ⟨hsearched, hsearch⟩ : search.1 = _ ∧ _ := run_search_past hclient hname s
  obtain ⟨hgot, hget⟩ : get.1 = _ ∧ _ := run_get_past hclient hname s'
  refine ⟨⟨_, hsearched, hgot⟩, hsearch, hget, ?_⟩
  have hsteady : (List.take 1 <$> forward text).ComesTo world ((resultFrom client text).map (List.take 1)) :=
    fun _ => congrArg Prod.fst (run_first_of_consults hclient text _)
  exact replays_of_comesTo (ItemType.ofName?_name .dns) (service_get hname) hsteady (isCacheable_first _ client text) s' steps

/-- A name with an alias and an address: the alias is got, and it is given again to the last millisecond of the first getting,
although the name is got past the cache once more in between. -/
theorem get_agrees_with_search_of_alias :
    let client : NameClient := fun q =>
      if q = ⟨"www.example.", .a⟩ then .ok [⟨q.name, 60, .cname "a.example."⟩, ⟨"a.example.", 60, .a 0xc0000201⟩] else .ok []
    let world : World := fun _ r =>
      match r with
      | .dns q => some (client q)
      | _ => none
    let steps := [Step.advance 1000, .execute ⟨"dns", .get, "www.example", "global"⟩ true, .advance 298999]
    let search := (execute {} ⟨"dns", .search, "www.example", "global"⟩ true).run world {}
    let get := (execute {} ⟨"dns", .get, "www.example", "global"⟩ true).run world search.2
    let later := after {} world steps get.2
    let again := (execute {} ⟨"dns", .get, "www.example", "global"⟩ false).run world later
    ∃ item rest, search.1 = some (.ok (item :: rest)) ∧
      (item :: rest).map Item.uniqueValue? = [some "www.example", some "a.example"] ∧
      get.1 = some (.ok [item]) ∧ again.1 = some (.ok [item]) ∧ get.2.requests = search.2.requests ++ search.2.requests ∧
      again.2.requests = later.requests := by
  intro client world steps search get later again
  have hclient : Consults world client := fun _ _ => rfl
  have hname : Address.parse? "www.example" = none := by decide +kernel
  obtain ⟨⟨outcome, hsearch, hget⟩, hsearched, hgot, hreplayed⟩ : (∃ outcome, search.1 = some outcome ∧ get.1 = _) ∧ _ :=
    get_agrees_with_search (c := {}) hclient hname {} search.2 steps
  have hnow : later.now < get.2.now + lifetime {} .dns := by decide +kernel
  obtain ⟨hagain, hrequests⟩ : again.1 = get.1 ∧ again.2.requests = later.requests := by
    with_reducible exact hreplayed hnow
  have hrequested : search.2.requests = questionsTo client "www.example" := hsearched
  have hboth : get.2.requests = search.2.requests ++ search.2.requests := by rw [hgot, hrequested]
  have hfound : search.1.map (Except.map (List.map Item.uniqueValue?)) =
      some (.ok [some "www.example", some "a.example"]) := by
    decide +kernel
  obtain ⟨items, hitems, hvalues⟩ := exists_items hfound
  cases Option.some.inj (hsearch.symm.trans hitems)
  cases items with
  | nil => cases hvalues
  | cons item rest => exact ⟨item, rest, hsearch, hvalues, hget, hagain.trans hget, hboth, hrequests⟩

end AssetGraph.Resolve.Names

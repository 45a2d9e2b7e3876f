import AssetGraph.Proofs.Dns.Answers
import AssetGraph.Proofs.Resolve.SuffixWalk

/-!
# Searching for names

A search for a name asks for both kinds of its addresses. A search for an address asks for the pointers of the address and for the
addresses of each name that they lead to, up to the first name without answers. That name decides: there is nothing, whatever was
found before it. A search whose answers are pointers only, or that has no name to ask for, succeeds without items.
-/
namespace AssetGraph.Resolve.Names

open Dns (Answers Question Record)

/-- The records under each question. -/
abbrev Zone := Question → List Record

variable {c : Config} {world : World} {zone : Zone} {s : State} {name text : String} {names asked : List String}
  {outcome : Outcome} {ignoreCache : Bool}

/-- Whether a world answers every question to a name server by a zone, without errors. -/
def Serves (world : World) (zone : Zone) : Prop := ∀ sent q, world sent (.dns q) = some (Except.ok (zone q))

def answersFor (zone : Zone) (name : String) : List Record :=
  zone ⟨Dns.qualified name, .a⟩ ++ zone ⟨Dns.qualified name, .aaaa⟩

def itemsFor (zone : Zone) (name : String) : List Item := (Answers.ofList (answersFor zone name)).items

def resultOf (name : String) (records : List Record) : Except Cause (List Item) :=
  if records = [] then .error (.nothingFound "DNS records" name) else .ok (Answers.ofList records).items

def questions (name : String) : List Request := [.dns ⟨Dns.qualified name, .a⟩, .dns ⟨Dns.qualified name, .aaaa⟩]

/-- Whether the answers for a name are more than pointers. -/
def IsDescribed (zone : Zone) (name : String) : Prop := ∃ r ∈ answersFor zone name, r.type ∈ [.cname, .a, .aaaa]

instance (zone : Zone) (name : String) : Decidable (IsDescribed zone name) :=
  inferInstanceAs (Decidable (∃ r ∈ answersFor zone name, r.type ∈ [.cname, .a, .aaaa]))

def target? (r : Record) : Option String :=
  match r.data with
  | .ptr target => some target
  | _ => none

/-- The names whose addresses a search asks for: its own, or those that the pointers of its address lead to. -/
def namesOf (zone : Zone) (text : String) : List String :=
  match Address.parse? text with
  | some a => (zone ⟨a.reverseName, .ptr⟩).filterMap target?
  | none => [text]

def pointerQuestions (text : String) : List Request :=
  match Address.parse? text with
  | some a => [.dns ⟨a.reverseName, .ptr⟩]
  | none => []

def resolution (text : String) : Resolution (List Item) :=
  match Address.parse? text with
  | some a => reverse a
  | none => forward text

/-- How a search for some names ends: the names that are asked for, in order, and what comes of it. -/
inductive Ends (zone : Zone) (names : List String) : List String → Outcome → Prop
  | found (hall : ∀ name ∈ names, answersFor zone name ≠ []) : Ends zone names names (.ok (names.flatMap (itemsFor zone)))
  | missing {before after : List String} {name : String} (hcut : names = before ++ name :: after)
      (hbefore : ∀ other ∈ before, answersFor zone other ≠ []) (hname : answersFor zone name = []) :
      Ends zone names (before ++ [name]) (.error {
        kind := .notFound
        message := "No DNS records found for " ++ name
        scope := some "global"
        itemType := some "dns"
        source := some "stdlib-dns" })

def ending (result : Except Cause (List Item)) : Outcome := result.mapError fun cause => cause.within .dns "global"

def IsNotFound : Option Outcome → Prop
  | some (.error e) => e.kind = .notFound
  | _ => False

/-- Whether a search for some names reports that there is nothing exactly when no name is described, and else finds all items. -/
def IsComplete (zone : Zone) (names : List String) (result : Option Outcome) : Prop :=
  (IsNotFound result ↔ ∀ name ∈ names, ¬IsDescribed zone name) ∧
    (¬IsNotFound result → result = some (.ok (names.flatMap (itemsFor zone))))

theorem itemsFor_eq_nil_iff : itemsFor zone name = [] ↔ ¬IsDescribed zone name := by
  rw [itemsFor, (Dns.areItems_items _).eq_nil_iff, IsDescribed]
  simp only [not_exists, not_and]
  refine forall₂_congr fun r _ => ?_
  cases r.type <;> decide

namespace Ends

theorem nil : Ends zone [] [] (.ok []) := .found nofun

theorem first (hname : answersFor zone name = []) :
    Ends zone (name :: names) [name] (ending (.error (.nothingFound "DNS records" name))) := by
  have hcut : name :: names = [] ++ name :: names := rfl
  exact .missing hcut nofun hname

theorem cons (hname : answersFor zone name ≠ []) (h : Ends zone names asked outcome) :
    Ends zone (name :: names) (name :: asked) (outcome.map (itemsFor zone name ++ ·)) := by
  cases h with
  | found hall => exact .found (List.forall_mem_cons.mpr ⟨hname, hall⟩)
  | missing hcut hbefore hother =>
    exact .missing (congrArg (name :: ·) hcut) (List.forall_mem_cons.mpr ⟨hname, hbefore⟩) hother

theorem isNotFound_iff (h : Ends zone names asked outcome) :
    IsNotFound (some outcome) ↔ ∃ name ∈ names, answersFor zone name = [] := by
  cases h with
  | found hall => exact iff_of_false id fun ⟨name, hmem, hname⟩ => hall name hmem hname
  | @missing before after name hcut _ hname =>
    exact iff_of_true rfl ⟨name, hcut ▸ List.mem_append_right _ List.mem_cons_self, hname⟩

theorem eq_ok_of_not_isNotFound (h : Ends zone names asked outcome) (hfound : ¬IsNotFound (some outcome)) :
    outcome = .ok (names.flatMap (itemsFor zone)) := by
  cases h with
  | found => rfl
  | missing => exact absurd rfl hfound

theorem eq_ok_nil_iff (h : Ends zone names asked outcome) :
    outcome = .ok [] ↔ ∀ name ∈ names, answersFor zone name ≠ [] ∧ ¬IsDescribed zone name := by
  cases h with
  | found hall =>
    rw [Except.ok.injEq, List.flatMap_eq_nil_iff]
    refine forall₂_congr fun name hname => ?_
    rw [itemsFor_eq_nil_iff, and_iff_right (hall name hname)]
  | @missing before after name hcut _ hname =>
    exact iff_of_false nofun fun hall => (hall name (hcut ▸ List.mem_append_right _ List.mem_cons_self)).1 hname

theorem isComplete_iff (h : Ends zone names asked outcome) :
    IsComplete zone names (some outcome) ↔
      ((∃ name ∈ names, answersFor zone name = []) ↔ ∀ name ∈ names, ¬IsDescribed zone name) := by
  rw [IsComplete, h.isNotFound_iff]
  refine and_iff_left fun hfound => congrArg some (h.eq_ok_of_not_isNotFound ?_)
  exact mt h.isNotFound_iff.mp hfound

end Ends

/-- A search that succeeds with some values of its items succeeds with items that have these values. -/
theorem exists_items {β : Type} {f : Item → β} {values : List β} {result : Option Outcome}
    (h : result.map (Except.map (List.map f)) = some (.ok values)) :
    ∃ items, result = some (.ok items) ∧ items.map f = values := by
  rcases result with _ | e | items
  · cases h
  · cases h
  · exact ⟨items, rfl, Except.ok.inj (Option.some.inj h)⟩

theorem run_ask_of_ok {α : Type} {type : Dns.RecordType} {records : List Record}
    (h : world s.requests (.dns ⟨name, type⟩) = some (Except.ok records)) (f : List Record → Resolution α) :
    (askNameServer name type >>= f).run.run world s =
      (f records).run.run world (s.sending [.dns ⟨name, type⟩]) := by
  rw [Resolution.run_bind, askNameServer_eq, Plan.bind, Plan.run, h]
  rfl

theorem run_ask_of_error {α : Type} {type : Dns.RecordType} {e : Dns.ClientError}
    (h : world s.requests (.dns ⟨name, type⟩) = some (Except.error e)) (f : List Record → Resolution α) :
    (askNameServer name type >>= f).run.run world s =
      (some (.error (.nameServer e)), s.sending [.dns ⟨name, type⟩]) := by
  rw [Resolution.run_bind, askNameServer_eq, Plan.bind, Plan.run, h]
  rfl

theorem run_ask {α : Type} (hserves : Serves world zone) (name : String) (type : Dns.RecordType)
    (f : List Record → Resolution α) (s : State) :
    (askNameServer name type >>= f).run.run world s =
      (f (zone ⟨name, type⟩)).run.run world (s.sending [.dns ⟨name, type⟩]) :=
  run_ask_of_ok (hserves s.requests ⟨name, type⟩) f

theorem forward_eq (name : String) :
    forward name = (do
      let v4 ← askNameServer (Dns.qualified name) .a
      let v6 ← askNameServer (Dns.qualified name) .aaaa
      ExceptT.mk (.done (resultOf name (v4 ++ v6)))) := by
  rw [forward]
  refine congrArg (Bind.bind _) (funext fun v4 => congrArg (Bind.bind _) (funext fun v6 => ?_))
  by_cases hempty : v4 ++ v6 = []
  · rw [resultOf, if_pos hempty, if_pos (List.isEmpty_iff.mpr hempty)]
    rfl
  · rw [resultOf, if_neg hempty, if_neg (mt List.isEmpty_iff.mp hempty)]
    rfl

theorem run_forward (hserves : Serves world zone) (name : String) (s : State) :
    (forward name).run.run world s =
      (some (if answersFor zone name = [] then .error (.nothingFound "DNS records" name) else .ok (itemsFor zone name)),
        s.sending (questions name)) := by
  rw [forward_eq, run_ask hserves, run_ask hserves, ← State.sending_append]
  rfl

theorem forwardAll_cons_of_none {r : Record} {rest : List Record} (h : target? r = none) :
    forwardAll (r :: rest) = forwardAll rest := by
  obtain ⟨owner, ttl, data⟩ := r
  cases data with
  | ptr target => cases h
  | a word | aaaa word | cname target => rfl

theorem forwardAll_cons_of_some {r : Record} {rest : List Record} (h : target? r = some name) :
    forwardAll (r :: rest) = do
      let items ← forward name
      let more ← forwardAll rest
      return items ++ more := by
  obtain ⟨owner, ttl, data⟩ := r
  cases data with
  | ptr target =>
    cases h
    rfl
  | a word | aaaa word | cname target => cases h

/-- The names that pointers lead to are asked for in turn, up to the first without answers. -/
theorem exists_run_forwardAll (hserves : Serves world zone) (records : List Record) (s : State) :
    ∃ asked result, Ends zone (records.filterMap target?) asked (ending result) ∧
      (forwardAll records).run.run world s = (some result, s.sending (asked.flatMap questions)) := by
  induction records generalizing s with
  | nil =>
    refine ⟨[], .ok [], .nil, ?_⟩
    rw [List.flatMap_nil, State.sending_nil]
    rfl
  | cons r rest ih =>
    cases htarget : target? r with
    | none =>
      rw [List.filterMap_cons_none htarget, forwardAll_cons_of_none htarget]
      exact ih s
    | some name =>
      rw [List.filterMap_cons_some htarget, forwardAll_cons_of_some htarget, Resolution.run_bind, Plan.run_bind,
        run_forward hserves]
      by_cases hname : answersFor zone name = []
      · refine ⟨[name], .error (.nothingFound "DNS records" name), .first hname, ?_⟩
        rw [if_pos hname, List.flatMap_singleton]
        rfl
      · obtain ⟨asked, result, hends, hrest⟩ := ih (s.sending (questions name))
        refine ⟨name :: asked, result.map (itemsFor zone name ++ ·), ?_, ?_⟩
        · cases result <;> exact hends.cons hname
        · rw [if_neg hname]
          dsimp only
          rw [Resolution.run_bind, Plan.run_bind, hrest, List.flatMap_cons, State.sending_append]
          cases result <;> rfl

/-- The names of a search are asked for in turn, up to the first without answers. -/
theorem exists_run_resolution (hserves : Serves world zone) (text : String) (s : State) :
    ∃ asked result, Ends zone (namesOf zone text) asked (ending result) ∧
      (resolution text).run.run world s =
        (some result, (s.sending (pointerQuestions text)).sending (asked.flatMap questions)) := by
  unfold resolution namesOf pointerQuestions
  cases Address.parse? text with
  | some a =>
    dsimp only
    rw [reverse, run_ask hserves]
    exact exists_run_forwardAll hserves _ _
  | none =>
    dsimp only
    rw [State.sending_nil, run_forward hserves]
    by_cases hname : answersFor zone text = []
    · refine ⟨[text], _, .first hname, ?_⟩
      rw [if_pos hname, List.flatMap_singleton]
    · refine ⟨[text], .ok (itemsFor zone text ++ []), Ends.nil.cons hname, ?_⟩
      rw [if_neg hname, List.flatMap_singleton, List.append_nil]

/-- A search is served by its resolution; one for an address only where addresses are looked up in reverse. -/
theorem service_eq (hreverse : Address.parse? text = none ∨ c.reverseLookup = true) :
    (Task.ofQuery c .dns ⟨"dns", .search, text, "global"⟩ ignoreCache).service c = .resolve (resolution text) none := by
  have htable : (Task.ofQuery c .dns ⟨"dns", .search, text, "global"⟩ ignoreCache).service c =
      match Address.parse? text with
      | some a => if c.reverseLookup then .resolve (reverse a) none else .answer (.ok [])
      | none => .resolve (forward text) none := rfl
  rw [htable, resolution]
  cases haddress : Address.parse? text with
  | none => rfl
  | some a =>
    have hon : c.reverseLookup = true := hreverse.resolve_left (haddress ▸ Option.some_ne_none a)
    exact if_pos hon

theorem exists_run_search (hserves : Serves world zone) (hreverse : Address.parse? text = none ∨ c.reverseLookup = true)
    (hrecalled : (Task.ofQuery c .dns ⟨"dns", .search, text, "global"⟩ ignoreCache).recalled? s = none) :
    let search := (execute c ⟨"dns", .search, text, "global"⟩ ignoreCache).run world s
    ∃ asked outcome, Ends zone (namesOf zone text) asked outcome ∧ search.1 = some outcome ∧
      search.2.requests = s.requests ++ pointerQuestions text ++ asked.flatMap questions := by
  intro search
  let t := Task.ofQuery c .dns ⟨"dns", .search, text, "global"⟩ ignoreCache
  obtain ⟨asked, result, hends, hresolution⟩ := exists_run_resolution hserves text (t.afterLookup s)
  have hsearch : search = _ :=
    Task.run_execute_resolved (ItemType.ofName?_name .dns) (service_eq hreverse) hrecalled hresolution
  rw [hsearch]
  refine ⟨asked, t.outcome result, ?_, rfl, rfl⟩
  cases result <;> exact hends

/-- What a search that recalls no outcome reports, by the answers for its names. -/
theorem reported_iff (hserves : Serves world zone) (hreverse : Address.parse? text = none ∨ c.reverseLookup = true)
    (hrecalled : (Task.ofQuery c .dns ⟨"dns", .search, text, "global"⟩ ignoreCache).recalled? s = none) :
    let names := namesOf zone text
    let search := (execute c ⟨"dns", .search, text, "global"⟩ ignoreCache).run world s
    (IsNotFound search.1 ↔ ∃ name ∈ names, answersFor zone name = []) ∧
    (search.1 = some (.ok []) ↔ ∀ name ∈ names, answersFor zone name ≠ [] ∧ ¬IsDescribed zone name) ∧
    (IsComplete zone names search.1 ↔
      ((∃ name ∈ names, answersFor zone name = []) ↔ ∀ name ∈ names, ¬IsDescribed zone name)) := by
  intro names search
  obtain ⟨asked, outcome, hends, houtcome, -⟩ : ∃ asked outcome, Ends zone names asked outcome ∧ search.1 = some outcome ∧ _ :=
    exists_run_search hserves hreverse hrecalled
  rw [houtcome, Option.some.injEq]
  exact ⟨hends.isNotFound_iff, hends.eq_ok_nil_iff, hends.isComplete_iff⟩

/-- A search that recalls no outcome asks for its names in turn, up to the first without answers. When there is such a name, it
reports that there is nothing; else it succeeds with the items of all names, which are none when no name is described. So it reports
that there is nothing exactly when no name is described, and finds all items otherwise, except in two cases: all names have answers
and none is described, as when an address points to no name at all, and one name has no answers while another is described. -/
theorem search_complete_iff (hserves : Serves world zone) (hreverse : Address.parse? text = none ∨ c.reverseLookup = true)
    (hrecalled : (Task.ofQuery c .dns ⟨"dns", .search, text, "global"⟩ ignoreCache).recalled? s = none) :
    let names := namesOf zone text
    let search := (execute c ⟨"dns", .search, text, "global"⟩ ignoreCache).run world s
    (∃ asked outcome, Ends zone names asked outcome ∧ search.1 = some outcome ∧
      search.2.requests = s.requests ++ pointerQuestions text ++ asked.flatMap questions) ∧
    (IsNotFound search.1 ↔ ∃ name ∈ names, answersFor zone name = []) ∧
    (search.1 = some (.ok []) ↔ ∀ name ∈ names, answersFor zone name ≠ [] ∧ ¬IsDescribed zone name) ∧
    (IsComplete zone names search.1 ↔
      ((∃ name ∈ names, answersFor zone name = []) ↔ ∀ name ∈ names, ¬IsDescribed zone name)) :=
  ⟨exists_run_search hserves hreverse hrecalled, reported_iff hserves hreverse hrecalled⟩

/-- An address that points to two names with answers is found by both. -/
theorem search_complete_of_two_pointers :
    let c : Config := { reverseLookup := true }
    let zone : Zone := fun q =>
      if q = ⟨"2.2.0.192.in-addr.arpa.", .ptr⟩ then [⟨q.name, 60, .ptr "a.example."⟩, ⟨q.name, 60, .ptr "b.example."⟩]
      else if q = ⟨"a.example.", .a⟩ then [⟨q.name, 60, .a 0xc0000202⟩]
      else if q = ⟨"b.example.", .aaaa⟩ then [⟨q.name, 60, .aaaa 1⟩]
      else []
    let world : World := fun _ r =>
      match r with
      | .dns q => some (.ok (zone q))
      | _ => none
    let search := (execute c ⟨"dns", .search, "192.0.2.2", "global"⟩ false).run world {}
    namesOf zone "192.0.2.2" = ["a.example.", "b.example."] ∧ IsComplete zone ["a.example.", "b.example."] search.1 ∧
      search.1 = some (.ok (itemsFor zone "a.example." ++ itemsFor zone "b.example.")) := by
  intro c zone world search
  have hserves : Serves world zone := fun _ _ => rfl
  have hrecalled : (Task.ofQuery c .dns ⟨"dns", .search, "192.0.2.2", "global"⟩ false).recalled? {} = none := rfl
  obtain ⟨-, -, -, hiff⟩ := search_complete_iff hserves (.inr rfl) hrecalled
  have hnames : namesOf zone "192.0.2.2" = ["a.example.", "b.example."] := by decide +kernel
  have hdescribed : IsDescribed zone "a.example." := ⟨⟨"a.example.", 60, .a 0xc0000202⟩, by decide +kernel, by decide⟩
  have hnever : ¬∀ name ∈ ["a.example.", "b.example."], ¬IsDescribed zone name :=
    fun hnone => hnone _ List.mem_cons_self hdescribed
  have hanswered : ¬∃ name ∈ ["a.example.", "b.example."], answersFor zone name = [] := by decide +kernel
  rw [hnames] at hiff
  have hcomplete : IsComplete zone ["a.example.", "b.example."] search.1 := hiff.mpr (iff_of_false hanswered hnever)
  exact ⟨hnames, hcomplete, hcomplete.2 (mt hcomplete.1.mp hnever)⟩

/-- An address without pointers and a name whose answer is a pointer are found without items, and an address that points to two names
is not found when the second has no answers, although the first has an address. -/
theorem search_incomplete :
    let c : Config := { reverseLookup := true }
    let zone : Zone := fun q =>
      if q = ⟨"2.2.0.192.in-addr.arpa.", .ptr⟩ then
        [⟨q.name, 60, .ptr "alive.example."⟩, ⟨q.name, 60, .ptr "gone.example."⟩]
      else if q = ⟨"alive.example.", .a⟩ then [⟨q.name, 60, .a 0xc0000202⟩]
      else if q = ⟨"odd.example.", .a⟩ then [⟨q.name, 60, .ptr "other.example."⟩]
      else []
    let world : World := fun _ r =>
      match r with
      | .dns q => some (.ok (zone q))
      | _ => none
    let search (text : String) := ((execute c ⟨"dns", .search, text, "global"⟩ false).run world {}).1
    namesOf zone "192.0.2.1" = [] ∧ search "192.0.2.1" = some (.ok []) ∧
      ¬IsDescribed zone "odd.example" ∧ search "odd.example" = some (.ok []) ∧
      namesOf zone "192.0.2.2" = ["alive.example.", "gone.example."] ∧ IsDescribed zone "alive.example." ∧
      IsNotFound (search "192.0.2.2") ∧
      ∀ text ∈ ["192.0.2.1", "192.0.2.2", "odd.example"], ¬IsComplete zone (namesOf zone text) (search text) := by
  intro c zone world search
  have hserves : Serves world zone := fun _ _ => rfl
  have hreported (text : String) := by
    have hrecalled : (Task.ofQuery c .dns ⟨"dns", .search, text, "global"⟩ false).recalled? {} = none := rfl
    exact reported_iff hserves (.inr rfl) hrecalled
  have hnotFound : IsNotFound (search "192.0.2.2") := (hreported _).1.mpr (by decide +kernel)
  have hempty {text : String} (h : ∀ name ∈ namesOf zone text, answersFor zone name ≠ [] ∧ ¬IsDescribed zone name) :
      search text = some (.ok []) := (hreported text).2.1.mpr h
  have hdiffer : ∀ text ∈ ["192.0.2.1", "192.0.2.2", "odd.example"],
      ¬((∃ name ∈ namesOf zone text, answersFor zone name = []) ↔ ∀ name ∈ namesOf zone text, ¬IsDescribed zone name) := by
    decide +kernel
  exact ⟨by decide +kernel, hempty (by decide +kernel), by decide +kernel, hempty (by decide +kernel), by decide +kernel,
    by decide +kernel, hnotFound, fun text htext => mt (hreported text).2.2.mp (hdiffer text htext)⟩

end AssetGraph.Resolve.Names

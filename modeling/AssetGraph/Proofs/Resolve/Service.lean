import AssetGraph.Proofs.Resolve.Asking

/-!
# How queries are served

Every query is served in one of three ways: by an answer that needs nothing, by recalling a kept outcome, or by resolving
when no outcome is kept. `service` is the table of all types and methods, `perform_eq` says that the table is right, and
the lemmas on `serve` say once what each way does to the state and in which order.
-/
namespace AssetGraph.Resolve

/-- How a query is served. A missing cause turns what is found into its first item. -/
inductive Service where
  | answer (outcome : Outcome)
  | replay (missing : Cause)
  | resolve (resolution : Resolution (List Item)) (missing : Option Cause)

namespace Task

def deliver (t : Task) : Option Cause → Outcome → Outcome
  | none, outcome => outcome
  | some missing, outcome => Outcome.ofItem (outcome.single (t.failure missing))

def serve (t : Task) : Service → Plan Outcome
  | .answer outcome => .done outcome
  | .replay missing =>
    .lookUp t.key t.ignoreCache fun
      | some outcome => .done (t.deliver (some missing) outcome)
      | none => .done (.error (t.failure missing))
  | .resolve resolution missing => (t.cached resolution).bind fun outcome => .done (t.deliver missing outcome)

def refuse (t : Task) (c : Cause) : Service := .answer (.error (t.failure c))

def getService (t : Task) : Service :=
  match t.type with
  | .dns =>
    if (Address.parse? t.text).isSome then t.refuse (.alreadyAnAddress t.text)
    else .resolve (List.take 1 <$> Names.forward t.text) (some (.nothingFound "DNS records" t.text))
  | .http =>
    match Http.Target.parse? t.text with
    | none => t.refuse (.notAWebUrl t.text)
    | some target =>
      .resolve ((fun response => [Http.responseItem t.scope t.text target response]) <$> askWebServer t.text)
        (some (.noResponse t.text))
  | .ip =>
    match Address.parse? t.text with
    | some a => .answer (.ok [a.item t.scope])
    | none => t.refuse (.notAnAddress t.text)
  | .asn => .resolve (Autnums.resolve t) (some (.nothingFound "ASN" t.text))
  | .domain => t.refuse (.cannotGet "Domains")
  | .entity => .resolve (Entities.resolve t ⟨.entity, t.text, none⟩) (some (.nothingFound "entity" t.text))
  | .ipNetwork => .replay (.cannotGet "IP networks")
  | .nameserver => .replay (.cannotGet "Nameservers")

def listService (t : Task) : Service :=
  match t.type with
  | .dns | .http | .ip | .entity => .answer (.ok [])
  | .asn => t.refuse (.cannotList "ASNs" .get)
  | .domain => t.refuse (.cannotList "Domains" .search)
  | .ipNetwork => t.refuse (.cannotList "IP networks" .search)
  | .nameserver => t.refuse (.cannotList "Nameservers" .search)

def searchService (c : Config) (t : Task) : Service :=
  match t.type with
  | .dns =>
    match Address.parse? t.text with
    | some a => if c.reverseLookup then .resolve (Names.reverse a) none else .answer (.ok [])
    | none => .resolve (Names.forward t.text) none
  | .domain => .resolve (Domains.resolve t) none
  | .entity =>
    .resolve (urlOf .entity t.text >>= fun url => Entities.resolve t ⟨.entity, url.query, some url.root⟩) none
  | .ipNetwork => .resolve (IpNetworks.resolve t) none
  | .nameserver => .resolve (Nameservers.resolve t) none
  | .http | .ip | .asn => t.refuse (.cannotSearch t.type t.text)

/-- How a task is served. A scope that its source does not serve is refused before anything else. -/
def service (c : Config) (t : Task) : Service :=
  if t.type.scopes.contains t.scope then
    match t.method with
    | .get => t.getService
    | .list => t.listService
    | .search => t.searchService c
  else .answer (.error ((QueryError.unservedScope t.scope).inContext t.scope t.type.name t.type.source))

theorem cachedItem_bind (t : Task) (missing : Cause) (resolve : Resolution (List Item)) :
    (t.cachedItem missing resolve).bind (fun item => .done (Outcome.ofItem item)) =
      t.serve (.resolve resolve (some missing)) := Plan.bind_assoc ..

theorem recalledItem_bind (t : Task) (missing : Cause) :
    (t.recalledItem missing).bind (fun item => .done (Outcome.ofItem item)) = t.serve (.replay missing) := by
  simp only [recalledItem, Plan.bind, serve, Plan.lookUp.injEq, true_and]
  funext found
  cases found <;> rfl

theorem cached_eq (t : Task) (resolve : Resolution (List Item)) :
    t.cached resolve = t.serve (.resolve resolve none) := (Plan.bind_done _).symm

theorem get_bind (t : Task) :
    ((get t).bind fun item => .done (Outcome.ofItem item)) = t.serve t.getService := by
  obtain ⟨type, method, scope, text, ignoreCache, ttl⟩ := t
  cases type with
  | dns =>
    simp only [get, getService, Names.get]
    split
    · rfl
    · exact cachedItem_bind ..
  | http =>
    simp only [get, getService, Pages.get]
    cases Http.Target.parse? text with
    | none => rfl
    | some target => exact cachedItem_bind ..
  | ip =>
    simp only [get, getService, Addresses.get]
    cases Address.parse? text <;> rfl
  | asn => exact cachedItem_bind ..
  | domain => rfl
  | entity => exact cachedItem_bind ..
  | ipNetwork => exact recalledItem_bind ..
  | nameserver => exact recalledItem_bind ..

theorem list_eq (t : Task) : list t = t.serve t.listService := by
  obtain ⟨type, method, scope, text, ignoreCache, ttl⟩ := t
  cases type <;> rfl

theorem search_eq (c : Config) (t : Task) : search c t = t.serve (t.searchService c) := by
  obtain ⟨type, method, scope, text, ignoreCache, ttl⟩ := t
  cases type with
  | dns =>
    simp only [search, searchService, Names.search]
    cases Address.parse? text with
    | none => exact cached_eq ..
    | some a =>
      dsimp only
      split
      · exact cached_eq ..
      · rfl
  | domain => exact cached_eq ..
  | entity => exact cached_eq ..
  | ipNetwork => exact cached_eq ..
  | nameserver => exact cached_eq ..
  | http => rfl
  | ip => rfl
  | asn => rfl

end Task

def Task.ofQuery (c : Config) (type : ItemType) (q : Query) (ignoreCache : Bool) : Task :=
  { type, method := q.method, scope := q.scope, text := q.text, ignoreCache, ttl := lifetime c type }

/-- A query for a known type is carried out as the table of services says. -/
theorem perform_eq (c : Config) (t : Task) (ht : t.ttl = lifetime c t.type) :
    perform c t.type t.method t.scope t.text t.ignoreCache = t.serve (t.service c) := by
  obtain ⟨type, method, scope, text, ignoreCache, ttl⟩ := t
  dsimp only at ht
  subst ht
  simp only [perform, Task.service]
  split
  · cases method with
    | get => exact Task.get_bind _
    | list => exact Task.list_eq _
    | search => exact Task.search_eq c _
  · rfl

theorem execute_known (c : Config) {q : Query} {type : ItemType} (h : ItemType.ofName? q.type = some type)
    (ignoreCache : Bool) :
    execute c q ignoreCache =
      (Task.ofQuery c type q ignoreCache).serve ((Task.ofQuery c type q ignoreCache).service c) := by
  simp only [execute, h]
  exact perform_eq c (Task.ofQuery c type q ignoreCache) rfl

theorem execute_unknown (c : Config) {q : Query} (h : ItemType.ofName? q.type = none) :
    ∃ o, ∀ ignoreCache, execute c q ignoreCache = .done o := by
  simp only [execute, h]
  exact ⟨_, fun _ => rfl⟩

namespace Task

variable {world : World} {t u : Task} {s s' : State} {r : Resolution (List Item)} {missing : Option Cause}
  {outcome : Outcome} {result : Except Cause (List Item)}

def recalled? (t : Task) (s : State) : Option Outcome := (s.results.lookup s.now t.key t.ignoreCache).1

def afterLookup (t : Task) (s : State) : State :=
  { s with results := (s.results.lookup s.now t.key t.ignoreCache).2 }

def afterKeeping (t : Task) (outcome : Outcome) (s : State) : State :=
  { s with results := s.results.settle s.now t.key outcome t.ttl }

theorem run_serve_replay (t : Task) (m : Cause) (s : State) :
    (t.serve (.replay m)).run world s =
      (some (((t.recalled? s).map (t.deliver (some m))).getD (.error (t.failure m))), t.afterLookup s) := by
  simp only [serve, Plan.run, recalled?, afterLookup]
  cases (s.results.lookup s.now t.key t.ignoreCache).1 <;> rfl

theorem events_serve_replay (t : Task) (m : Cause) (s : State) :
    (t.serve (.replay m)).events world s = [.lookedUp t.key (t.recalled? s).isSome] := by
  simp only [serve, Plan.events, recalled?]
  cases (s.results.lookup s.now t.key t.ignoreCache).1 <;> rfl

theorem run_serve_recalled (h : t.recalled? s = some outcome) :
    (t.serve (.resolve r missing)).run world s = (some (t.deliver missing outcome), t.afterLookup s) := by
  simp only [recalled?] at h
  simp only [serve, cached, Plan.bind, Plan.run, h]
  rfl

theorem events_serve_recalled (h : t.recalled? s = some outcome) :
    (t.serve (.resolve r missing)).events world s = [.lookedUp t.key true] := by
  simp only [recalled?] at h
  simp only [serve, cached, Plan.bind, Plan.events, h]
  rfl

theorem run_serve_resolved (h : t.recalled? s = none)
    (hr : r.run.run world (t.afterLookup s) = (some result, s')) :
    (t.serve (.resolve r missing)).run world s =
      (some (t.deliver missing (t.outcome result)), t.afterKeeping (t.outcome result) s') := by
  simp only [recalled?] at h
  simp only [afterLookup] at hr
  simp only [serve, cached, Plan.bind, Plan.run, h, Bind.bind, Plan.run_bind, hr]
  rfl

theorem run_execute_resolved {c : Config} {q : Query} {type : ItemType} {ignoreCache : Bool}
    (htype : ItemType.ofName? q.type = some type) (hservice : (ofQuery c type q ignoreCache).service c = .resolve r missing)
    (h : (ofQuery c type q ignoreCache).recalled? s = none)
    (hr : r.run.run world ((ofQuery c type q ignoreCache).afterLookup s) = (some result, s')) :
    (execute c q ignoreCache).run world s =
      (some ((ofQuery c type q ignoreCache).deliver missing ((ofQuery c type q ignoreCache).outcome result)),
        (ofQuery c type q ignoreCache).afterKeeping ((ofQuery c type q ignoreCache).outcome result) s') := by
  rw [execute_known c htype, hservice]
  exact run_serve_resolved h hr

theorem events_serve_resolved (h : t.recalled? s = none)
    (hr : r.run.run world (t.afterLookup s) = (some result, s')) :
    (t.serve (.resolve r missing)).events world s =
      .lookedUp t.key false :: r.run.events world (t.afterLookup s) ++
        if (t.outcome result).isCacheable then [.kept t.key] else [] := by
  simp only [recalled?] at h
  simp only [afterLookup] at hr
  simp only [serve, cached, Plan.bind, Plan.events, h, Bind.bind, Plan.events_bind, Plan.run_bind, hr, Plan.run,
    List.append_nil]
  rfl

theorem run_serve_unanswered (h : t.recalled? s = none)
    (hr : r.run.run world (t.afterLookup s) = (none, s')) :
    (t.serve (.resolve r missing)).run world s = (none, s') := by
  simp only [recalled?] at h
  simp only [afterLookup] at hr
  simp only [serve, cached, Plan.bind, Plan.run, h, Bind.bind, Plan.run_bind, hr]

theorem events_serve_unanswered (h : t.recalled? s = none)
    (hr : r.run.run world (t.afterLookup s) = (none, s')) :
    (t.serve (.resolve r missing)).events world s =
      .lookedUp t.key false :: r.run.events world (t.afterLookup s) := by
  simp only [recalled?] at h
  simp only [afterLookup] at hr
  simp only [serve, cached, Plan.bind, Plan.events, h, Bind.bind, Plan.events_bind, Plan.run_bind, hr,
    List.append_nil]
  rfl

theorem service_withIgnoreCache (c : Config) (t : Task) (ignoreCache : Bool) :
    service c { t with ignoreCache } = t.service c := by
  have hget : getService { t with ignoreCache } = t.getService := by
    simp only [getService, refuse, failure, Autnums.resolve, Entities.resolve, item]
  have hlist : listService { t with ignoreCache } = t.listService := rfl
  have hsearch : searchService c { t with ignoreCache } = t.searchService c := by
    simp only [searchService, refuse, failure, Domains.resolve, Entities.resolve, IpNetworks.resolve, IpNetworks.fetch,
      Nameservers.resolve, item]
  simp only [service, hget, hlist, hsearch]

/-- Tasks with one key ask the same, and differ only in whether a kept outcome is wanted. -/
theorem eq_of_key_eq {c : Config} (h : t.key = u.key) (ht : t.ttl = lifetime c t.type)
    (hu : u.ttl = lifetime c u.type) : t = { u with ignoreCache := t.ignoreCache } := by
  obtain ⟨type, method, scope, text, ignoreCache, ttl⟩ := t
  obtain ⟨type', method', scope', text', ignoreCache', ttl'⟩ := u
  simp only [key, Identity.mk.injEq] at h
  obtain ⟨-, rfl, rfl, hname, rfl⟩ := h
  have htype : type = type' := ItemType.name_inj hname
  subst htype
  dsimp only at ht hu
  subst ht hu
  rfl

theorem service_eq_of_key_eq {c : Config} (h : t.key = u.key) (ht : t.ttl = lifetime c t.type)
    (hu : u.ttl = lifetime c u.type) : t.service c = u.service c := by
  rw [eq_of_key_eq h ht hu, service_withIgnoreCache]

theorem outcome_eq_of_key_eq (h : t.key = u.key) (result : Except Cause (List Item)) :
    t.outcome result = u.outcome result := by
  simp only [key, Identity.mk.injEq] at h
  have htype : t.type = u.type := ItemType.name_inj h.2.2.2.1
  cases result with
  | ok items => rfl
  | error e => simp only [outcome, failure, htype, h.2.2.1]

/-- The ways in which a task can be served, with what decides for each. Only a page and an address are refused for their
text. -/
inductive ServedBy (c : Config) (t : Task) : Service → Prop where
  | unserved (hscope : t.scope ≠ globalScope) :
      ServedBy c t (.answer (.error ((QueryError.unservedScope t.scope).inContext t.scope t.type.name t.type.source)))
  | refused {cause : Cause} (hscope : t.scope = globalScope)
      (hblame : cause.kind = .malformedInput → t.type = .http ∨ t.type = .ip) :
      ServedBy c t (.answer (.error (t.failure cause)))
  | nothing (hscope : t.scope = globalScope) : ServedBy c t (.answer (.ok []))
  | gotAddress {a : Address} (hscope : t.scope = globalScope) (htype : t.type = .ip) :
      ServedBy c t (.answer (.ok [a.item t.scope]))
  | recalled {things : String} (hscope : t.scope = globalScope) (hmethod : t.method = .get) :
      ServedBy c t (.replay (.cannotGet things))
  | gotName (hscope : t.scope = globalScope) (htype : t.type = .dns) (hmethod : t.method = .get) :
      ServedBy c t (.resolve (List.take 1 <$> Names.forward t.text) (some (.nothingFound "DNS records" t.text)))
  | gotPage {target : Http.Target} (hscope : t.scope = globalScope) (htype : t.type = .http) (hmethod : t.method = .get)
      (htarget : Http.Target.parse? t.text = some target) :
      ServedBy c t (.resolve
        ((fun response => [Http.responseItem t.scope t.text target response]) <$> askWebServer t.text)
        (some (.noResponse t.text)))
  | gotAutnum (hscope : t.scope = globalScope) (htype : t.type = .asn) (hmethod : t.method = .get) :
      ServedBy c t (.resolve (Autnums.resolve t) (some (.nothingFound "ASN" t.text)))
  | gotEntity (hscope : t.scope = globalScope) (htype : t.type = .entity) (hmethod : t.method = .get) :
      ServedBy c t (.resolve (Entities.resolve t ⟨.entity, t.text, none⟩) (some (.nothingFound "entity" t.text)))
  | soughtName (hscope : t.scope = globalScope) (htype : t.type = .dns) (hmethod : t.method = .search) :
      ServedBy c t (.resolve (Names.forward t.text) none)
  | soughtAddress {a : Address} (hscope : t.scope = globalScope) (htype : t.type = .dns)
      (hmethod : t.method = .search) :
      ServedBy c t (.resolve (Names.reverse a) none)
  | soughtDomain (hscope : t.scope = globalScope) (htype : t.type = .domain) (hmethod : t.method = .search) :
      ServedBy c t (.resolve (Domains.resolve t) none)
  | soughtEntity (hscope : t.scope = globalScope) (htype : t.type = .entity) (hmethod : t.method = .search) :
      ServedBy c t (.resolve
        (urlOf .entity t.text >>= fun url => Entities.resolve t ⟨.entity, url.query, some url.root⟩) none)
  | soughtNetwork (hscope : t.scope = globalScope) (htype : t.type = .ipNetwork) (hmethod : t.method = .search) :
      ServedBy c t (.resolve (IpNetworks.resolve t) none)
  | soughtNameserver (hscope : t.scope = globalScope) (htype : t.type = .nameserver) (hmethod : t.method = .search) :
      ServedBy c t (.resolve (Nameservers.resolve t) none)

theorem servedBy_get (c : Config) (hscope : t.scope = globalScope) (hmethod : t.method = .get) :
    t.ServedBy c t.getService := by
  unfold getService refuse
  cases htype : t.type with
  | dns =>
    dsimp only
    split
    · exact .refused hscope nofun
    · exact .gotName hscope htype hmethod
  | http =>
    dsimp only
    split
    · exact .refused hscope fun _ => .inl htype
    · exact .gotPage hscope htype hmethod ‹_›
  | ip =>
    dsimp only
    split
    · exact .gotAddress hscope htype
    · exact .refused hscope fun _ => .inr htype
  | asn => exact .gotAutnum hscope htype hmethod
  | domain => exact .refused hscope nofun
  | entity => exact .gotEntity hscope htype hmethod
  | ipNetwork | nameserver => exact .recalled hscope hmethod

theorem servedBy_list (c : Config) (hscope : t.scope = globalScope) : t.ServedBy c t.listService := by
  unfold listService refuse
  cases htype : t.type with
  | dns | http | ip | entity => exact .nothing hscope
  | asn | domain | ipNetwork | nameserver => exact .refused hscope nofun

theorem servedBy_search (c : Config) (hscope : t.scope = globalScope) (hmethod : t.method = .search) :
    t.ServedBy c (t.searchService c) := by
  unfold searchService refuse
  cases htype : t.type with
  | dns =>
    dsimp only
    split
    · split
      · exact .soughtAddress hscope htype hmethod
      · exact .nothing hscope
    · exact .soughtName hscope htype hmethod
  | domain => exact .soughtDomain hscope htype hmethod
  | entity => exact .soughtEntity hscope htype hmethod
  | ipNetwork => exact .soughtNetwork hscope htype hmethod
  | nameserver => exact .soughtNameserver hscope htype hmethod
  | http | ip | asn => exact .refused hscope nofun

theorem servedBy (c : Config) (t : Task) : t.ServedBy c (t.service c) := by
  unfold service
  split
  · rename_i hserved
    have hscope : t.scope = globalScope := by simpa [ItemType.scopes, globalScope] using hserved
    cases hmethod : t.method with
    | get => exact servedBy_get c hscope hmethod
    | list => exact servedBy_list c hscope
    | search => exact servedBy_search c hscope hmethod
  · rename_i hserved
    exact .unserved fun hscope => hserved (by simp [ItemType.scopes, hscope, globalScope])

theorem service_search {c : Config} (htype : t.type = .ipNetwork) (hmethod : t.method = .search)
    (hscope : t.scope = globalScope) : t.service c = .resolve (IpNetworks.resolve t) none := by
  obtain ⟨type, method, scope, text, ignoreCache, ttl⟩ := t
  dsimp only at htype hmethod hscope
  subst htype hmethod hscope
  rfl

/-- A task is served by a resolution that only asks, or it searches for a network. -/
theorem asksOnly_of_service {c : Config} (h : t.service c = .resolve r missing) :
    r.AsksOnly ∨ t.type = .ipNetwork ∧ t.method = .search ∧ r = IpNetworks.resolve t ∧ missing = none := by
  have hserved := h ▸ servedBy c t
  cases hserved with
  | gotName => exact .inl ((asksOnly_forward _).map _)
  | gotPage => exact .inl ((asksOnly_askWebServer _).map _)
  | gotAutnum => exact .inl (asksOnly_autnum _)
  | gotEntity => exact .inl (asksOnly_entity _ _)
  | soughtName => exact .inl (asksOnly_forward _)
  | soughtAddress => exact .inl (asksOnly_reverse _)
  | soughtDomain => exact .inl (asksOnly_domain _)
  | soughtEntity => exact .inl ((asksOnly_urlOf ..).bind fun _ => asksOnly_entity _ _)
  | soughtNetwork _ htype hmethod => exact .inr ⟨htype, hmethod, rfl, rfl⟩
  | soughtNameserver => exact .inl (asksOnly_nameserver _)

theorem type_ne_ip_of_service {c : Config} (h : t.service c = .resolve r missing) : t.type ≠ .ip := by
  intro hip
  have hserved := h ▸ servedBy c t
  cases hserved <;> simp_all only [reduceCtorEq]

end Task
end AssetGraph.Resolve

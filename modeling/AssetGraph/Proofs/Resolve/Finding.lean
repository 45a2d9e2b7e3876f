import AssetGraph.Proofs.Resolve.Yield

/-!
# What items show

Every item that a resolution gives shows one finding: a registry object, an alias or the hosts of a name, a page or an
address. What an item says and where its edges lead is decided by what it shows, so that a fact about all items is a
fact about five kinds of finding.
-/
namespace AssetGraph

def Rdap.Object.type : Rdap.Object → ItemType
  | ipNetwork _ => .ipNetwork
  | domain _ => .domain
  | entity _ => .entity
  | nameserver _ => .nameserver
  | autnum _ => .asn

/-- A nameserver is known by its name, every other object by its handle. -/
def Rdap.Object.uniqueAttribute : Rdap.Object → String
  | nameserver _ => "ldhName"
  | _ => "handle"

namespace Resolve

/-- What an item can show. `fetched` are the URLs by which an object was found. -/
inductive Finding where
  | object (o : Rdap.Object) (fetched : List String)
  | aliasOf (owner : String) (record : Dns.Record)
  | hosts (owner : String) (records : List Dns.Record)
  | page (url : String) (response : Http.Response)
  | address (a : Address)

namespace Finding

def type : Finding → ItemType
  | object o _ => o.type
  | aliasOf _ _ => .dns
  | hosts _ _ => .dns
  | page _ _ => .http
  | address _ => .ip

/-- The item that shows the finding. A record that is no alias, and a page that no web server can have, is not shown. -/
def item? (scope : String) : Finding → Option Item
  | object o fetched =>
    some { type := o.type.name, scope, uniqueAttribute := o.uniqueAttribute, attributes := o.attributes,
           edges := o.edges scope fetched }
  | aliasOf owner record => Dns.aliasItem? owner record
  | hosts owner records => some (Dns.addressItem owner records)
  | page url response => (Http.Target.parse? url).map fun target => Http.responseItem scope url target response
  | address a => some (a.item scope)

end Finding

def Shows (type : ItemType) (scope : String) (item : Item) : Prop :=
  ∃ f : Finding, f.type = type ∧ f.item? scope = some item

/-- What a success looks like: items that show findings, and at most one of them when one is to be got. -/
structure Fits (type : ItemType) (method : Method) (scope : String) (items : List Item) : Prop where
  shows : ∀ item ∈ items, Shows type scope item
  single : method = .get → items.length ≤ 1

variable {c : Config} {t : Task} {s : State} {type : ItemType} {method : Method} {scope text : String} {item : Item}
  {items : List Item} {r : Resolution (List Item)} {missing : Option Cause}

theorem Fits.singleton (h : Shows type scope item) : Fits type method scope [item] where
  shows other hother := by
    rw [List.mem_singleton.mp hother]
    exact h
  single _ := Nat.le_refl _

theorem Fits.take_one (h : ∀ item ∈ items, Shows type scope item) : Fits type method scope (items.take 1) where
  shows item hitem := h item (List.mem_of_mem_take hitem)
  single _ := List.length_take_le ..

theorem Fits.of_search (h : ∀ item ∈ items, Shows type scope item) : Fits type .search scope items := ⟨h, nofun⟩

theorem shows_object (o : Rdap.Object) (fetched : List String) (h : o.type = t.type) :
    Shows t.type t.scope (t.item o.uniqueAttribute o.attributes (o.edges t.scope fetched)) := by
  refine ⟨.object o fetched, h, ?_⟩
  simp only [Finding.item?, h, Task.item]

theorem of_aliasItem? {owner : String} {record : Dns.Record} (h : Dns.aliasItem? owner record = some item) :
    ∃ target, record.data = .cname target ∧ item.type = ItemType.dns.name ∧ item.scope = globalScope ∧
      item.edges = [Dns.domainEdge owner, .searching .dns (Dns.trimName target) globalScope .inbound] := by
  unfold Dns.aliasItem? at h
  split at h
  · rename_i target hdata
    cases h
    exact ⟨target, hdata, rfl, rfl, rfl⟩
  · cases h

/-- An item is of the type that it shows. In the scope of all names it is of that scope too. -/
theorem of_shows (h : Shows type globalScope item) : item.type = type.name ∧ item.scope = globalScope := by
  obtain ⟨f, rfl, hitem⟩ := h
  cases f with
  | object o fetched =>
    cases hitem
    exact ⟨rfl, rfl⟩
  | aliasOf owner record =>
    obtain ⟨-, -, hname, hscope, -⟩ := of_aliasItem? hitem
    exact ⟨hname, hscope⟩
  | hosts owner records =>
    cases hitem
    exact ⟨rfl, rfl⟩
  | page url response =>
    obtain ⟨target, -, rfl⟩ := Option.map_eq_some_iff.mp hitem
    exact ⟨rfl, rfl⟩
  | address a =>
    cases hitem
    exact ⟨rfl, rfl⟩

theorem shows_of_mem_items {answers : Dns.Answers} (h : item ∈ answers.items) : Shows .dns scope item := by
  rcases List.mem_append.mp h with halias | hhosts
  · obtain ⟨⟨owner, record⟩, -, hitem⟩ := List.mem_filterMap.mp halias
    exact ⟨.aliasOf owner record, rfl, hitem⟩
  · obtain ⟨⟨owner, records⟩, -, rfl⟩ := List.mem_map.mp hhosts
    exact ⟨.hosts owner records, rfl, rfl⟩

/-- A text is blamed only when it leads to no registry object of the expected kind. -/
theorem yields_urlOf (expected : Rdap.Kind) (text : String) :
    (urlOf expected text).Yields (fun _ => True)
      fun c => c.kind = .malformedInput → ∀ url, Rdap.Url.parse? text = some url → url.kind ≠ expected := by
  unfold urlOf
  split
  · rename_i hnone
    refine .throw fun _ url hurl => ?_
    rw [hnone] at hurl
    cases hurl
  · rename_i url hsome
    split
    · exact .pure trivial
    · rename_i hkind
      refine .throw fun _ other hother => ?_
      rw [hsome] at hother
      cases hother
      exact hkind

theorem yields_network (htype : t.type = .ipNetwork) :
    (IpNetworks.resolve t).Yields (Fits t.type method t.scope) fun _ => True := by
  have hshown : ∀ n, Fits t.type method t.scope [IpNetworks.itemOf t n] := fun n =>
    .singleton (shows_object (.ipNetwork n) [] htype.symm)
  intro world s result hresult
  rcases IpNetworks.resolve_cases world t s with ⟨-, hrun, -⟩ | ⟨target, range, -, -, hrun, -⟩ |
    ⟨target, -, -, hrun, -⟩ | ⟨target, answer, -, -, -, hrun, -⟩
  · rw [hrun] at hresult
    cases hresult
    trivial
  · rw [hrun] at hresult
    cases hresult
    exact hshown range.value
  · rw [hrun] at hresult
    cases hresult
  · rw [hrun] at hresult
    cases hresult
    simp only [IpNetworks.resultOf]
    cases IpNetworks.allocationOf t.text answer with
    | error e => trivial
    | ok found => exact hshown found.1

theorem yields_walk (name : String) (candidates : List String) :
    (Domains.walk name candidates).Yields (fun _ => True) fun c => c.kind ≠ .malformedInput := by
  induction candidates with
  | nil => exact .throw nofun
  | cons candidate rest ih =>
    refine Plan.Yields.ask fun answer => ?_
    cases answer with
    | error e => exact ih
    | ok response => exact (yields_objectOf _ _ (by exact nofun) response).bind fun domain _ => .pure trivial

theorem yields_domain (htype : t.type = .domain) :
    (Domains.resolve t).Yields (Fits t.type method t.scope) fun c => c.kind ≠ .malformedInput :=
  (yields_walk _ _).bind fun found _ =>
    .pure (.singleton (shows_object (.domain found.domain) found.urls htype.symm))

theorem yields_entity (htype : t.type = .entity) (request : Rdap.Request) :
    (Entities.resolve t request).Yields (Fits t.type method t.scope) fun c => c.kind ≠ .malformedInput :=
  (yields_askRegistry request).bind fun response _ =>
    (yields_objectOf _ _ (by exact nofun) response).bind fun e _ =>
      .pure (.singleton (shows_object (.entity e) [] htype.symm))

theorem yields_autnum (htype : t.type = .asn) :
    (Autnums.resolve t).Yields (Fits t.type method t.scope) fun c => c.kind ≠ .malformedInput :=
  (yields_askRegistry _).bind fun response _ =>
    (yields_objectOf _ _ (by exact nofun) response).bind fun a _ =>
      .pure (.singleton (shows_object (.autnum a) [] htype.symm))

theorem yields_entity_search (htype : t.type = .entity) :
    (urlOf .entity t.text >>= fun url => Entities.resolve t ⟨.entity, url.query, some url.root⟩).Yields
      (Fits t.type method t.scope)
      fun c => c.kind = .malformedInput → ∀ url, Rdap.Url.parse? t.text = some url → url.kind ≠ .entity :=
  (yields_urlOf .entity t.text).bind fun _ _ =>
    (yields_entity htype _).mono (fun _ h => h) fun _ h hkind => absurd hkind h

theorem yields_nameserver (htype : t.type = .nameserver) :
    (Nameservers.resolve t).Yields (Fits t.type method t.scope)
      fun c => c.kind = .malformedInput → ∀ url, Rdap.Url.parse? t.text = some url → url.kind ≠ .nameserver := by
  refine (yields_urlOf .nameserver t.text).bind fun url _ => ?_
  have hasked : (do
      let response ← askRegistry ⟨.nameserver, url.query, some url.root⟩
      let n ← objectOf "nameserver" (fun | .nameserver n => some n | _ => none) (.nothingFound "nameserver" t.text)
        response
      return [t.item "ldhName" n.attributes n.edges] : Resolution (List Item)).Yields
        (Fits t.type method t.scope) fun c => c.kind ≠ .malformedInput :=
    (yields_askRegistry _).bind fun response _ =>
      (yields_objectOf _ _ (by exact nofun) response).bind fun n _ =>
        .pure (.singleton (shows_object (.nameserver n) [] htype.symm))
  exact hasked.mono (fun _ h => h) fun _ h hkind => absurd hkind h

theorem yields_forward (scope text : String) :
    (Names.forward text).Yields (fun items => ∀ item ∈ items, Shows .dns scope item) fun _ => True := by
  refine (yields_askNameServer _ .a).found.bind fun v4 _ => (yields_askNameServer _ .aaaa).found.bind fun v6 _ => ?_
  split
  · exact .throw trivial
  · exact .pure fun item hitem => shows_of_mem_items hitem

theorem yields_forwardAll (scope : String) (records : List Dns.Record) :
    (Names.forwardAll records).Yields (fun items => ∀ item ∈ items, Shows .dns scope item) fun _ => True := by
  induction records with
  | nil => exact .pure nofun
  | cons record rest ih =>
    unfold Names.forwardAll
    split
    · refine (yields_forward scope _).bind fun items hitems => ih.bind fun more hmore => .pure ?_
      intro item hitem
      exact (List.mem_append.mp hitem).elim (hitems item) (hmore item)
    · exact ih

theorem yields_reverse (scope : String) (a : Address) :
    (Names.reverse a).Yields (fun items => ∀ item ∈ items, Shows .dns scope item) fun _ => True :=
  (yields_askNameServer _ _).found.bind fun _ _ => yields_forwardAll scope _

theorem yields_page (htype : t.type = .http) {target : Http.Target} (ht : Http.Target.parse? t.text = some target) :
    ((fun response => [Http.responseItem t.scope t.text target response]) <$> askWebServer t.text).Yields
      (Fits t.type method t.scope) fun _ => True := by
  refine (yields_askWebServer t.text).map fun response _ => ?_
  refine .singleton ⟨.page t.text response, htype.symm, ?_⟩
  simp only [Finding.item?, ht, Option.map_some]

namespace Task

/-- A resolution gives only what fits the type, the method and the scope of its task. -/
theorem yields_of_service (h : t.service c = .resolve r missing) :
    r.Yields (Fits t.type t.method t.scope) fun _ => True := by
  have hserved := h ▸ servedBy c t
  cases hserved with
  | gotName _ htype hmethod =>
    rw [htype, hmethod]
    exact (yields_forward t.scope t.text).map fun items hitems => .take_one hitems
  | gotPage _ htype _ htarget => exact yields_page htype htarget
  | gotAutnum _ htype => exact (yields_autnum htype).found
  | gotEntity _ htype => exact (yields_entity htype _).found
  | soughtName _ htype hmethod =>
    rw [htype, hmethod]
    exact (yields_forward t.scope t.text).mono (fun _ h => .of_search h) fun _ h => h
  | soughtAddress _ htype hmethod =>
    rw [htype, hmethod]
    exact (yields_reverse t.scope _).mono (fun _ h => .of_search h) fun _ h => h
  | soughtDomain _ htype => exact (yields_domain htype).found
  | soughtEntity _ htype => exact (yields_entity_search htype).found
  | soughtNetwork _ htype => exact yields_network htype
  | soughtNameserver _ htype => exact (yields_nameserver htype).found

end Task
end Resolve
end AssetGraph

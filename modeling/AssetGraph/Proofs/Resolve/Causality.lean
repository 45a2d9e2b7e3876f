import AssetGraph.Proofs.Rdap.Attributes
import AssetGraph.Proofs.Resolve.Outcomes

/-!
# How a change travels

The type of an item decides which relations its edges have: to which type they lead, by which method, and in which
directions a change travels along them. Some relations occur exactly once, some at most once. Every edge can be
followed, for the source of the type that it leads to offers the method.
-/
namespace AssetGraph

/-- What an edge says besides the text that it asks for. -/
structure Relation where
  target : ItemType
  method : Method
  propagation : Propagation
  deriving DecidableEq, Repr

/-- The relations that items of a type have to others. -/
def ItemType.relations : ItemType → List Relation
  | ipNetwork => [⟨entity, .search, .inert⟩]
  | asn => [⟨entity, .search, .inert⟩]
  | domain => [⟨nameserver, .search, .inbound⟩, ⟨entity, .search, .inert⟩, ⟨ipNetwork, .search, .inbound⟩]
  | entity => [⟨entity, .search, .inert⟩, ⟨asn, .get, .outbound⟩]
  | nameserver => [⟨entity, .search, .inert⟩, ⟨dns, .search, .both⟩, ⟨ip, .get, .both⟩]
  | dns => [⟨ip, .get, .both⟩, ⟨dns, .search, .inbound⟩, ⟨domain, .search, .inbound⟩]
  | http => [⟨ip, .get, .inbound⟩, ⟨dns, .search, .inbound⟩, ⟨http, .get, .inbound⟩]
  | ip => []

namespace Edge

def relation? (e : Edge) : Option Relation :=
  (ItemType.ofName? e.query.type).map fun target => ⟨target, e.query.method, e.propagation⟩

def Follows (r : Relation) (e : Edge) : Prop := e.query.scope = globalScope ∧ e.relation? = some r

theorem follows_getting (type : ItemType) (text : String) (p : Propagation) :
    (getting type text globalScope p).Follows ⟨type, .get, p⟩ := by
  refine ⟨rfl, ?_⟩
  simp only [relation?, getting, ItemType.ofName?_name, Option.map_some]

theorem follows_searching (type : ItemType) (text : String) (p : Propagation) :
    (searching type text globalScope p).Follows ⟨type, .search, p⟩ := by
  refine ⟨rfl, ?_⟩
  simp only [relation?, searching, ItemType.ofName?_name, Option.map_some]

end Edge

namespace Relation

variable {r r' : Relation} {es fs : List Edge}

def count (r : Relation) (es : List Edge) : Nat := es.countP fun e => e.relation? = some r

theorem count_append (r : Relation) (es fs : List Edge) : r.count (es ++ fs) = r.count es + r.count fs :=
  List.countP_append

theorem count_eq_length (h : ∀ e ∈ es, e.Follows r) : r.count es = es.length :=
  List.countP_eq_length.mpr fun e he => decide_eq_true (h e he).2

theorem count_eq_zero (h : ∀ e ∈ es, e.Follows r') (hne : r' ≠ r) : r.count es = 0 :=
  List.countP_eq_zero.mpr fun e he hr => hne (Option.some.inj ((h e he).2.symm.trans (of_decide_eq_true hr)))

end Relation

namespace Rdap

theorem follows_autnumEdges (autnums : List Autnum) :
    ∀ e ∈ autnumEdges autnums globalScope, e.Follows ⟨.asn, .get, .outbound⟩ := by
  intro e he
  obtain ⟨handle, -, rfl⟩ := List.mem_map.mp he
  exact Edge.follows_getting ..

theorem follows_dnsNameEdge (name : String) : (dnsNameEdge name).Follows ⟨.dns, .search, .both⟩ :=
  Edge.follows_searching ..

theorem follows_addressEdges (hosts : Option HostAddresses) :
    ∀ e ∈ addressEdges hosts, e.Follows ⟨.ip, .get, .both⟩ := by
  intro e he
  unfold addressEdges at he
  split at he
  · cases he
  · obtain ⟨ip, -, rfl⟩ := List.mem_map.mp he
    exact Edge.follows_getting ..

end Rdap

theorem Dns.follows_domainEdge (name : String) : (domainEdge name).Follows ⟨.domain, .search, .inbound⟩ :=
  Edge.follows_searching ..

namespace Http

/-- Only how a response was encoded and secured is added to what every item of a page says. -/
theorem get?_attributes (url : String) (r : Response) {name : String} (hencoding : name ≠ "transferEncoding")
    (htls : name ≠ "tls") :
    (r.attributes url).get? name = (Attributes.ofFields [
      ("name", .string url), ("status", Json.ofNat r.status), ("statusString", .string r.statusText),
      ("proto", .string r.protocol), ("headers", .object (r.headerMap.entries.map fun (name, value) =>
        (name, .string value)))]).get? name := by
  simp only [Response.attributes]
  cases r.transferEncoding.isEmpty <;> cases r.tls <;> simp [Attributes.get?_set_of_ne, hencoding.symm, htls.symm]

end Http

namespace ItemType

def Permits (type : ItemType) (es : List Edge) : Prop := ∀ e ∈ es, ∃ r ∈ type.relations, e.Follows r

theorem Permits.of_follows {type : ItemType} {r : Relation} {es : List Edge} (hr : r ∈ type.relations)
    (h : ∀ e ∈ es, e.Follows r) : type.Permits es := fun e he => ⟨r, hr, h e he⟩

theorem Permits.append {type : ItemType} {es fs : List Edge} (hes : type.Permits es) (hfs : type.Permits fs) :
    type.Permits (es ++ fs) := List.forall_mem_append.mpr ⟨hes, hfs⟩

theorem Permits.singleton {type : ItemType} {r : Relation} {e : Edge} (hr : r ∈ type.relations) (h : e.Follows r) :
    type.Permits [e] := .of_follows hr (List.forall_mem_singleton.mpr h)

end ItemType

namespace Rdap

end Rdap

namespace Dns

variable {owner : String} {record : Record} {item : Item}

theorem permits_aliasItem? (h : aliasItem? owner record = some item) :
    ItemType.dns.Permits item.edges ∧ Relation.count ⟨.domain, .search, .inbound⟩ item.edges = 1 := by
  obtain ⟨target, -, -, -, hedges⟩ := Resolve.of_aliasItem? h
  rw [hedges]
  have hname := Edge.follows_searching .dns (trimName target) .inbound
  refine ⟨.append (.singleton (by decide) (follows_domainEdge owner)) (.singleton (by decide) hname), ?_⟩
  rw [← List.singleton_append, Relation.count_append,
    Relation.count_eq_length (List.forall_mem_singleton.mpr (follows_domainEdge owner)),
    Relation.count_eq_zero (List.forall_mem_singleton.mpr hname) (by decide)]
  rfl

theorem permits_addressItem (owner : String) (records : List Record) :
    ItemType.dns.Permits (addressItem owner records).edges ∧
      Relation.count ⟨.domain, .search, .inbound⟩ (addressItem owner records).edges = 1 := by
  have haddresses : ∀ e ∈ (addressEntries records).map fun entry => Edge.getting .ip entry.ip globalScope .both,
      e.Follows ⟨.ip, .get, .both⟩ := by
    intro e he
    obtain ⟨entry, -, rfl⟩ := List.mem_map.mp he
    exact Edge.follows_getting ..
  refine ⟨.append (.of_follows (by decide) haddresses) (.singleton (by decide) (follows_domainEdge owner)), ?_⟩
  rw [addressItem, Relation.count_append, Relation.count_eq_zero haddresses (by decide),
    Relation.count_eq_length (List.forall_mem_singleton.mpr (follows_domainEdge owner))]
  rfl

end Dns

namespace Http

end Http

namespace Resolve

variable {c : Config} {world : World} {q : Query} {s : State} {type : ItemType} {method : Method} {text : String}
  {item : Item} {items : List Item} {r : Resolution (List Item)} {missing : Option Cause} {ignoreCache : Bool}

/-- A world in which every registry knows one object, every name has one address and every page is there. -/
def knowing (o : Rdap.Object) : World := fun _ r =>
  match r with
  | .rdap _ => some (.ok ⟨some o, []⟩)
  | .dns question => some (.ok (if question.type = .a then [⟨question.name, 300, .a 0⟩] else []))
  | .http _ => some (.ok ⟨200, "OK", "HTTP/1.1", [], [], none⟩)

end Resolve
end AssetGraph

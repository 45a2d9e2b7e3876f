/-!
# Item types

The kinds of node that the graph knows, with the source that resolves each.
-/
namespace AssetGraph

inductive ItemType where
  | dns
  | http
  | ip
  | asn
  | domain
  | entity
  | ipNetwork
  | nameserver
  deriving DecidableEq, Repr

namespace ItemType

def all : List ItemType := [dns, http, ip, asn, domain, entity, ipNetwork, nameserver]

def name : ItemType → String
  | dns => "dns"
  | http => "http"
  | ip => "ip"
  | asn => "rdap-asn"
  | domain => "rdap-domain"
  | entity => "rdap-entity"
  | ipNetwork => "rdap-ip-network"
  | nameserver => "rdap-nameserver"

def ofName? (s : String) : Option ItemType :=
  all.find? fun t => t.name = s

def source : ItemType → String
  | dns => "stdlib-dns"
  | http => "stdlib-http"
  | ip => "stdlib-ip"
  | _ => "rdap"

/-- How much the source of a type counts against another source of the same type. -/
def weight : ItemType → Nat
  | _ => 100

def scopes : ItemType → List String
  | _ => ["global"]

example : (all.map name).Pairwise (· < ·) := by decide +kernel

theorem ofName?_name (t : ItemType) : ofName? t.name = some t := by
  cases t <;> rfl

theorem name_of_ofName? {s : String} {t : ItemType} (h : ofName? s = some t) : t.name = s := by
  simpa using List.find?_some h

theorem name_inj {t u : ItemType} (h : t.name = u.name) : t = u := by
  have ht := ofName?_name t
  rw [h, ofName?_name u] at ht
  exact (Option.some.inj ht).symm

end ItemType
end AssetGraph

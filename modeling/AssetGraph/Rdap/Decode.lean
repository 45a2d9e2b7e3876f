import AssetGraph.Rdap.Object

/-!
# Registry objects, read from JSON

One table of fields per record, in the order that counts when the record is written as an array. Unknown members are
passed over; null stands for a missing value only where the field may be missing. Entities nest, so they are read
with a bound on the nesting that `Object.decode` takes from the value itself.
-/
namespace AssetGraph.Rdap

open Json

def field {α β : Type} (name : String) (decode : Json → Decoded β) (set : α → β → α) : RecordField α :=
  ⟨name, fun j a => (decode j).map (set a)⟩

def text {α : Type} (name : String) (set : α → String → α) : RecordField α := field name decodeString set

def text? {α : Type} (name : String) (set : α → Option String → α) : RecordField α :=
  field name (decodeOption decodeString) set

def texts {α : Type} (name : String) (set : α → List String → α) : RecordField α :=
  field name (decodeList decodeString) set

def decodeAny (j : Json) : Decoded Json := .ok j

def Link.decode : Json → Decoded Link :=
  decodeRecord [
    text? "value" fun l v => { l with value := v },
    text? "rel" fun l v => { l with rel := v },
    text "href" fun l v => { l with href := v },
    texts "hreflang" fun l v => { l with hreflang := v },
    text? "title" fun l v => { l with title := v },
    text? "media" fun l v => { l with media := v },
    text? "type" fun l v => { l with type := v }] {}

def Event.decode : Json → Decoded Event :=
  decodeRecord [
    text "eventAction" fun e v => { e with action := v },
    text? "eventActor" fun e v => { e with actor := v },
    text "eventDate" fun e v => { e with date := v },
    field "links" (decodeList Link.decode) fun e v => { e with links := v }] {}

def Remark.decode : Json → Decoded Remark :=
  decodeRecord [
    text? "title" fun r v => { r with title := v },
    text? "type" fun r v => { r with type := v },
    texts "description" fun r v => { r with description := v },
    field "links" (decodeList Link.decode) fun r v => { r with links := v }] {}

def PublicId.decode : Json → Decoded PublicId :=
  decodeRecord [
    text "type" fun p v => { p with type := v },
    text "identifier" fun p v => { p with identifier := v }] {}

def HostAddresses.decode : Json → Decoded HostAddresses :=
  decodeRecord [
    texts "v4" fun h v => { h with v4 := v },
    texts "v6" fun h v => { h with v6 := v }] {}

class HasRecord (α : Type) where
  record : α → Record
  withRecord : α → Record → α

instance {E : Type} : HasRecord (IpNetworkOf E) := ⟨(·.toRecord), fun n r => { n with toRecord := r }⟩

instance {E : Type} : HasRecord (AutnumOf E) := ⟨(·.toRecord), fun a r => { a with toRecord := r }⟩

instance : HasRecord Entity := ⟨(·.toRecord), fun e r => { e with toRecord := r }⟩

instance : HasRecord Nameserver := ⟨(·.toRecord), fun n r => { n with toRecord := r }⟩

instance : HasRecord Domain := ⟨(·.toRecord), fun d r => { d with toRecord := r }⟩

namespace Record

variable {α : Type} [HasRecord α]

/-- A field of the common part, within a record type that carries it. -/
def common {β : Type} (name : String) (decode : Json → Decoded β) (set : Record → β → Record) : RecordField α :=
  field name decode fun a v => HasRecord.withRecord a (set (HasRecord.record a) v)

def objectClassNameField : RecordField α :=
  common "objectClassName" decodeString fun r v => { r with objectClassName := v }

def conformanceField : RecordField α :=
  common "rdapConformance" (decodeList decodeString) fun r v => { r with conformance := v }

def noticesField : RecordField α :=
  common "notices" (decodeList Remark.decode) fun r v => { r with notices := v }

def handleField : RecordField α :=
  common "handle" (decodeOption decodeString) fun r v => { r with handle := v }

def statusField : RecordField α :=
  common "status" (decodeList decodeString) fun r v => { r with status := v }

def remarksField : RecordField α :=
  common "remarks" (decodeList Remark.decode) fun r v => { r with remarks := v }

def linksField : RecordField α :=
  common "links" (decodeList Link.decode) fun r v => { r with links := v }

def port43Field : RecordField α :=
  common "port43" (decodeOption decodeString) fun r v => { r with port43 := v }

def eventsField : RecordField α :=
  common "events" (decodeList Event.decode) fun r v => { r with events := v }

def leading : List (RecordField α) := [objectClassNameField, conformanceField, noticesField, handleField]

end Record

open Record

def ipNetworkTable (entity : Json → Decoded Entity) : List (RecordField IpNetwork) :=
  leading ++ [
    text "startAddress" fun n v => { n with startAddress := v },
    text "endAddress" fun n v => { n with endAddress := v },
    text? "ipVersion" fun n v => { n with ipVersion := v },
    text? "name" fun n v => { n with name := v },
    text? "type" fun n v => { n with type := v },
    text? "country" fun n v => { n with country := v },
    text? "parentHandle" fun n v => { n with parentHandle := v },
    statusField,
    field "entities" (decodeList entity) fun n v => { n with entities := v },
    remarksField,
    linksField,
    port43Field,
    eventsField]

def autnumTable (entity : Json → Decoded Entity) : List (RecordField Autnum) :=
  leading ++ [
    field "startAutnum" (decodeOption (decodeNat (Numeral.limit 32))) fun a v => { a with startAutnum := v },
    field "endAutnum" (decodeOption (decodeNat (Numeral.limit 32))) fun a v => { a with endAutnum := v },
    text? "ipVersion" fun a v => { a with ipVersion := v },
    text? "name" fun a v => { a with name := v },
    text? "type" fun a v => { a with type := v },
    statusField,
    text? "country" fun a v => { a with country := v },
    field "entities" (decodeList entity) fun a v => { a with entities := v },
    remarksField,
    linksField,
    port43Field,
    eventsField]

def entityTable (entity : Json → Decoded Entity) (network : Json → Decoded IpNetwork)
    (autnum : Json → Decoded Autnum) : List (RecordField Entity) :=
  leading ++ [
    field "vcardArray" (decodeOption Card.decode) fun e v => { e with card := v },
    texts "roles" fun e v => { e with roles := v },
    field "publicIDs" (decodeList PublicId.decode) fun e v => { e with publicIds := v },
    field "entities" (decodeList entity) fun e v => { e with entities := v },
    remarksField,
    linksField,
    eventsField,
    field "asEventActor" (decodeList Event.decode) fun e v => { e with asEventActor := v },
    statusField,
    port43Field,
    field "networks" (decodeList network) fun e v => { e with networks := v },
    field "autnums" (decodeList autnum) fun e v => { e with autnums := v }]

mutual

/-- Reads an entity that nests at most `bound` records deep. -/
def decodeEntity : Nat → Json → Decoded Entity
  | 0, _ => .error .shape
  | bound + 1, j => decodeRecord (entityTable (decodeEntity bound) (decodeIpNetwork bound) (decodeAutnum bound)) {} j

def decodeIpNetwork : Nat → Json → Decoded IpNetwork
  | 0, _ => .error .shape
  | bound + 1, j => decodeRecord (ipNetworkTable (decodeEntity bound)) {} j

def decodeAutnum : Nat → Json → Decoded Autnum
  | 0, _ => .error .shape
  | bound + 1, j => decodeRecord (autnumTable (decodeEntity bound)) {} j

end

/-- A bound on the nesting of records that no value reaches. -/
def nestingBound (j : Json) : Nat := j.depth + 1

def Entity.decode (j : Json) : Decoded Entity := decodeEntity (nestingBound j) j

def IpNetwork.decode (j : Json) : Decoded IpNetwork := decodeIpNetwork (nestingBound j) j

def Autnum.decode (j : Json) : Decoded Autnum := decodeAutnum (nestingBound j) j

def Nameserver.decode : Json → Decoded Nameserver :=
  decodeRecord (leading ++ [
    text "ldhName" fun n v => { n with ldhName := v },
    text? "unicodeName" fun n v => { n with unicodeName := v },
    field "ipAddresses" (decodeOption HostAddresses.decode) fun n v => { n with addresses := v },
    field "entities" (decodeList Entity.decode) fun n v => { n with entities := v },
    statusField,
    remarksField,
    linksField,
    port43Field,
    eventsField]) {}

def Domain.decode : Json → Decoded Domain :=
  decodeRecord (leading ++ [
    text? "ldhName" fun d v => { d with ldhName := v },
    text? "unicodeName" fun d v => { d with unicodeName := v },
    field "variants" (decodeList decodeAny) fun d v => { d with variants := v },
    field "nameservers" (decodeList Nameserver.decode) fun d v => { d with nameservers := v },
    field "secureDNS" (decodeOption decodeAny) fun d v => { d with secureDns := v },
    field "entities" (decodeList Entity.decode) fun d v => { d with entities := v },
    statusField,
    field "publicIDs" (decodeList PublicId.decode) fun d v => { d with publicIds := v },
    remarksField,
    linksField,
    port43Field,
    eventsField,
    field "network" (decodeOption IpNetwork.decode) fun d v => { d with network := v }]) {}

def Object.decode (j : Json) : Decoded Object :=
  let name := ((j.member? "objectClassName").bind string?).getD ""
  match name with
  | "ip network" => (IpNetwork.decode j).map ipNetwork
  | "domain" => (Domain.decode j).map domain
  | "entity" => (Entity.decode j).map entity
  | "nameserver" => (Nameserver.decode j).map nameserver
  | "autnum" => (Autnum.decode j).map autnum
  | _ => .error (.unknownClass name)

end AssetGraph.Rdap

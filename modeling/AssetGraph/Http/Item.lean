import AssetGraph.Address.Notation
import AssetGraph.Http.Response
import AssetGraph.Http.Target
import AssetGraph.Item

/-!
# Items of HTTP responses

The item of the response to a URL, with an edge to the host and, for a redirect, one to the place it leads to.
-/
namespace AssetGraph.Http

open Json

def TlsState.toJson (t : TlsState) : Json :=
  object ((t.certificate.map fun c => ("certificate", string c.displayName)).toList ++
    [("serverName", string t.serverName), ("version", string t.version.text)])

def Target.hostEdge (t : Target) (scope : String) : Edge :=
  match Address.parse? t.host with
  | some address => .getting .ip address.render scope .inbound
  | none => .searching .dns t.host scope .inbound

def redirectEdge (t : Target) (scope : String) (r : Response) : List Edge :=
  if r.isRedirect then
    ((r.location?.bind t.resolve?).map fun next => .getting .http next scope .inbound).toList
  else []

def Response.attributes (url : String) (r : Response) : Attributes :=
  let always := Attributes.ofFields [
    ("name", string url),
    ("status", Json.ofNat r.status),
    ("statusString", string r.statusText),
    ("proto", string r.protocol),
    ("headers", object (r.headerMap.entries.map fun (name, value) => (name, string value)))]
  let withEncoding :=
    if r.transferEncoding.isEmpty then always
    else Attributes.set always "transferEncoding" (ofStrings r.transferEncoding)
  match r.tls with
  | some tls => Attributes.set withEncoding "tls" tls.toJson
  | none => withEncoding

def responseItem (scope url : String) (t : Target) (r : Response) : Item :=
  { type := ItemType.http.name
    scope := scope
    uniqueAttribute := "name"
    attributes := r.attributes url
    edges := t.hostEdge scope :: redirectEdge t scope r }

end AssetGraph.Http

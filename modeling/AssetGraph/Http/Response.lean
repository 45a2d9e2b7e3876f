import AssetGraph.Keyed
import AssetGraph.Text

/-!
# HTTP responses

The answer to a HEAD request: a status, headers in the order received, and what the server showed of its TLS state.
-/
namespace AssetGraph.Http

inductive TlsVersion where
  | ssl3
  | tls10
  | tls11
  | tls12
  | tls13
  | unknown
  deriving DecidableEq, Repr

def TlsVersion.text : TlsVersion → String
  | ssl3 => "SSLv3"
  | tls10 => "TLSv1.0"
  | tls11 => "TLSv1.1"
  | tls12 => "TLSv1.2"
  | tls13 => "TLSv1.3"
  | unknown => "unknown"

/-- The certificate of a server, with the SHA-1 fingerprint in hexadecimal. -/
structure Certificate where
  commonName : String
  fingerprint : String
  deriving DecidableEq, Repr

def Certificate.displayName (c : Certificate) : String :=
  c.commonName ++ " (SHA-1: " ++ c.fingerprint ++ ")"

structure TlsState where
  version : TlsVersion
  serverName : String
  certificate : Option Certificate
  deriving DecidableEq, Repr

structure Response where
  status : Nat
  statusText : String
  protocol : String
  headers : List (String × String)
  transferEncoding : List String
  tls : Option TlsState
  deriving DecidableEq, Repr

namespace Response

/-- The headers by name; the values of a repeated one are joined with commas. -/
def headerMap (r : Response) : Keyed String :=
  r.headers.foldl (fun m (name, value) =>
    m.alter name fun
      | some joined => joined ++ ", " ++ value
      | none => value) .empty

/-- The value of the first `Location` header, in any case, unless it is empty. -/
def location? (r : Response) : Option String :=
  ((r.headers.find? fun h => Text.asciiLower h.1 = "location").map Prod.snd).filter (· ≠ "")

def isRedirect (r : Response) : Bool := 300 ≤ r.status && r.status < 400

end Response
end AssetGraph.Http

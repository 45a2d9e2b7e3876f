import AssetGraph.Rdap.Object
import AssetGraph.Rdap.Url

/-!
# Registry requests

A request for one object, to a given server or to the one that the query leads to, and what comes back.
-/
namespace AssetGraph.Rdap

structure Request where
  kind : Kind
  query : String
  server : Option String := none
  deriving DecidableEq, Repr

/-- The object, if the registry gave one, and the URLs fetched to find it. -/
structure Response where
  object : Option Object
  urls : List String

inductive ClientErrorKind where
  | objectDoesNotExist
  | bootstrapNoMatch
  | transport
  | decode
  deriving DecidableEq, Repr

namespace ClientErrorKind

def word : ClientErrorKind → String
  | objectDoesNotExist => "object_does_not_exist"
  | bootstrapNoMatch => "bootstrap_no_match"
  | transport => "transport"
  | decode => "decode"

def ofWord? (w : String) : Option ClientErrorKind :=
  [objectDoesNotExist, bootstrapNoMatch, transport, decode].find? fun k => k.word = w

end ClientErrorKind

structure ClientError where
  kind : ClientErrorKind
  message : String
  deriving DecidableEq, Repr

def ClientError.render (e : ClientError) : String :=
  "RDAP client error (" ++ e.kind.word ++ "): " ++ e.message

end AssetGraph.Rdap

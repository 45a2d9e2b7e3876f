import AssetGraph.Dns.Client
import AssetGraph.Http.Client
import AssetGraph.ItemType
import AssetGraph.Network.Notation
import AssetGraph.Query
import AssetGraph.QueryError
import AssetGraph.Rdap.Client

/-!
# Causes of failure

Why a resolution fails. `Cause.kind` classifies a cause and `Cause.message` words it; nothing else does.
-/
namespace AssetGraph.Resolve

inductive Cause where
  | unknownType (type : String)
  | cannotSearch (type : ItemType) (text : String)
  | cannotGet (things : String)
  | cannotList (things : String) (instead : Method)
  | notARange (text : String)
  | notARegistryUrl (text : String)
  | urlOfOtherKind (expected found : Rdap.Kind)
  | otherClass (expected found : String)
  | nothingFound (thing text : String)
  | noDomainObject (candidate : String)
  | badRange (error : Network.Error)
  | registry (error : Rdap.ClientError)
  | nameServer (error : Dns.ClientError)
  | webServer (error : Http.ClientError)
  | alreadyAnAddress (text : String)
  | notAnAddress (text : String)
  | notAWebUrl (text : String)
  | noResponse (text : String)
  deriving DecidableEq, Repr

namespace Cause

def kind : Cause → ErrorKind
  | notARange _ | notARegistryUrl _ | urlOfOtherKind _ _ | badRange _ | notAnAddress _ | notAWebUrl _ =>
    .malformedInput
  | webServer (.invalidUrl _) => .malformedInput
  | webServer (.request _ _) => .exchangeFailed
  | otherClass _ _ => .unexpectedResponse
  | registry e => if e.kind = .objectDoesNotExist then .notFound else .exchangeFailed
  | nameServer _ => .exchangeFailed
  | _ => .notFound

def message : Cause → String
  | unknownType type => "No adapter for type " ++ type
  | cannotSearch type text => type.name ++ " does not support the SEARCH method (query: " ++ text ++ ")"
  | cannotGet things => things ++ " can't be queried by handle, use the SEARCH method instead"
  | cannotList things instead => things ++ " cannot be listed, use the " ++ instead.word ++ " method instead"
  | notARange text => "Invalid IP or CIDR: " ++ text
  | notARegistryUrl text => "Invalid RDAP URL: " ++ text
  | urlOfOtherKind expected found => "Expected URL to lookup " ++ expected.segment ++ ", got " ++ found.segment
  | otherClass expected found => "Expected " ++ expected ++ ", got " ++ found
  | nothingFound thing text => "No " ++ thing ++ " found for " ++ text
  | noDomainObject candidate => "Empty domain response for " ++ candidate
  | badRange e => e.message
  | registry e => e.render
  | nameServer e => e.render
  | webServer e => e.render
  | alreadyAnAddress text => text ++ " is already an IP address, no DNS entry will be found"
  | notAnAddress text => text ++ " is not a valid IP"
  | notAWebUrl text => text ++ " is not an http(s) URL"
  | noResponse text => "No response from " ++ text

def error (c : Cause) : QueryError := { kind := c.kind, message := c.message }

def within (c : Cause) (type : ItemType) (scope : String) : QueryError :=
  c.error.inContext scope type.name type.source

end Cause
end AssetGraph.Resolve

import AssetGraph.Http.Response

/-!
# HEAD requests

What can go wrong with a HEAD request.
-/
namespace AssetGraph.Http

inductive ClientError where
  | invalidUrl (url : String)
  | request (url message : String)
  deriving DecidableEq, Repr

def ClientError.render : ClientError → String
  | invalidUrl url => "invalid request URL " ++ url
  | request url message => "HEAD " ++ url ++ " failed: " ++ message

end AssetGraph.Http

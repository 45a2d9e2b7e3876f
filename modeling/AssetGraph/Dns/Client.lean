import AssetGraph.Dns.Record

/-!
# DNS questions

A question for the records of one type under a qualified name. No record is an answer, not an error.
-/
namespace AssetGraph.Dns

structure Question where
  name : String
  type : RecordType
  deriving DecidableEq, Repr

inductive ClientError where
  | noServers
  | exchange (name : String) (type : RecordType) (message : String)
  deriving DecidableEq, Repr

def ClientError.render : ClientError → String
  | noServers => "no dns servers available"
  | exchange name type message =>
    "DNS exchange failed for " ++ name ++ " (" ++ type.word ++ "): " ++ message

end AssetGraph.Dns

import AssetGraph.Address.Notation

/-!
# Resource records

What a name server answers: address, alias and pointer records, as they come, with names usually fully qualified.
-/
namespace AssetGraph.Dns

inductive RecordType where
  | a
  | aaaa
  | cname
  | ptr
  deriving DecidableEq, Repr

namespace RecordType

def word : RecordType → String
  | a => "A"
  | aaaa => "AAAA"
  | cname => "CNAME"
  | ptr => "PTR"

def ofWord? (w : String) : Option RecordType :=
  [a, aaaa, cname, ptr].find? fun t => t.word = w

end RecordType

inductive RecordData where
  | a (word : BitVec 32)
  | aaaa (word : BitVec 128)
  | cname (target : String)
  | ptr (target : String)
  deriving DecidableEq, Repr

structure Record where
  name : String
  ttl : Nat
  data : RecordData
  deriving DecidableEq, Repr

namespace Record

def type (r : Record) : RecordType :=
  match r.data with
  | .a _ => .a
  | .aaaa _ => .aaaa
  | .cname _ => .cname
  | .ptr _ => .ptr

def address? (r : Record) : Option Address :=
  match r.data with
  | .a word => some (.v4 word)
  | .aaaa word => some (.v6 word)
  | _ => none

end Record
end AssetGraph.Dns

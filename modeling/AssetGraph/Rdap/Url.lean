import AssetGraph.Text

/-!
# Registry URLs

A registry object lives at `root/kind/query`. The last two slashes of a URL decide its parts, so a URL splits in at
most one way.
-/
namespace AssetGraph.Rdap

inductive Kind where
  | ipNetwork
  | domain
  | entity
  | nameserver
  | autnum
  deriving DecidableEq, Repr

namespace Kind

def segment : Kind → String
  | ipNetwork => "ip"
  | domain => "domain"
  | entity => "entity"
  | nameserver => "nameserver"
  | autnum => "autnum"

def ofSegment? (s : String) : Option Kind :=
  [ipNetwork, domain, entity, nameserver, autnum].find? fun k => k.segment = s

end Kind

structure Url where
  root : String
  kind : Kind
  query : String
  deriving DecidableEq, Repr

namespace Url

/-- Whether the text is `http://` or `https://` and at least one more character, none of them a line feed. -/
def isRoot (cs : List Char) : Bool :=
  let rest? := (Text.dropStart? "https://".toList cs) <|> (Text.dropStart? "http://".toList cs)
  match rest? with
  | some rest => !rest.isEmpty && !rest.contains '\n'
  | none => false

def parse? (s : String) : Option Url := do
  let (front, query) ← Text.splitLast? '/' s.toList
  let (root, segment) ← Text.splitLast? '/' front
  let kind ← Kind.ofSegment? (String.ofList segment)
  if isRoot root ∧ query ≠ [] then some ⟨String.ofList root, kind, String.ofList query⟩ else none

def join (u : Url) (kind : Kind) (query : String) : String :=
  String.ofList (Text.dropAllFinal '/' u.root.toList) ++ "/" ++ kind.segment ++ "/" ++ query

end Url
end AssetGraph.Rdap

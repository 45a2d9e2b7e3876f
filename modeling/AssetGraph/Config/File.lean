import AssetGraph.Config
import AssetGraph.Yaml.Node
import AssetGraph.Yaml.Scalar

/-!
# Configuration files

A configuration is kept as YAML. `ofYaml` reads and checks one, where what a file leaves out has its usual value, and
`toYaml` writes every setting.
-/
namespace AssetGraph

namespace Yaml.Node

def nullTag : String := "tag:yaml.org,2002:null"

def integerTag : String := "tag:yaml.org,2002:int"

def booleanTag : String := "tag:yaml.org,2002:bool"

def text? : Node → Option String
  | scalar s => some s.text
  | _ => none

/-- The text of a scalar that may be something other than a text: without quotes, or under a bar with `tag`. -/
def word? (tag : String) : Node → Option String
  | scalar s => if s.style = .plain || (s.style = .literal && s.tag? = some tag) then some s.text else none
  | _ => none

def natural? (bound : Nat) (node : Node) : Option Nat := (node.word? integerTag).bind (Word.natural? bound)

def boolean? (node : Node) : Option Bool := (node.word? booleanTag).bind Word.boolean?

def isBlank : Node → Bool
  | scalar s => s.style = .plain && s.text.isEmpty
  | _ => false

/-- What `read?` makes of a node, unless nothing or a word for nothing is written. -/
def unlessNull? {α : Type} (read? : Node → Option α) (node : Node) : Option (Option α) :=
  let value : Option (Option α) := (read? node).map some
  match node with
  | scalar s =>
    if s.style ≠ .plain then value
    else match s.tag? with
      | none => if s.text.isEmpty || Word.isNull s.text then some none else value
      | some tag =>
        if tag ≠ nullTag then value
        else if Word.isNull s.text then some none
        else none
  | _ => value

end Yaml.Node

namespace Yaml.Document

/-- The items of a sequence; nothing written is an empty one. -/
def items? (d : Document) : Node → Option (List Node)
  | .sequence items => some (items.map d.follow)
  | node => if node.isBlank then some [] else none

/-- The entries of a mapping by the texts of their keys, each key at most once and one of `names`; nothing written is an
empty mapping. -/
def fields? (d : Document) (names : List String) (node : Node) : Option (List (String × Node)) := do
  let fields ← match node with
    | .mapping entries => entries.mapM fun (key, value) => (d.follow key).text?.map fun name => (name, d.follow value)
    | node => if node.isBlank then some [] else none
  let found := fields.map (·.1)
  if found.all names.contains && found.Nodup then some fields else none

end Yaml.Document

namespace Config

open Yaml (Document Node)

/-- What `read?` makes of a field, or what holds without it. -/
def fieldOr? {α : Type} (fields : List (String × Node)) (name : String) (otherwise : α)
    (read? : Node → Option α) : Option α :=
  match fields.lookup name with
  | none => some otherwise
  | some node => read? node

/-- A field that may be left out or hold nothing. -/
def section? {α : Type} (fields : List (String × Node)) (name : String) (read? : Node → Option α) :
    Option (Option α) :=
  fieldOr? fields name none (Node.unlessNull? read?)

/-- The lifetimes in a section of the file, put into the settings. -/
def readLifetimes? (c : Config) (d : Document) (node : Node) : Option Config := do
  let fields ← d.fields? ["rdap_ttl_secs", "dns_ttl_secs", "http_ttl_secs"] node
  let rdapTtl ← fieldOr? fields "rdap_ttl_secs" c.rdapTtl (Node.natural? (Numeral.limit 64))
  let dnsTtl ← fieldOr? fields "dns_ttl_secs" c.dnsTtl (Node.natural? (Numeral.limit 64))
  let httpTtl ← fieldOr? fields "http_ttl_secs" c.httpTtl (Node.natural? (Numeral.limit 64))
  some { c with rdapTtl, dnsTtl, httpTtl }

def readServers? (d : Document) (node : Node) : Option (List String) := do (← d.items? node).mapM Node.text?

/-- The way names are looked up, put into the settings. -/
def readLookup? (c : Config) (d : Document) (node : Node) : Option Config := do
  let fields ← d.fields? ["reverse_lookup", "servers"] node
  let reverseLookup ← fieldOr? fields "reverse_lookup" c.reverseLookup Node.boolean?
  let servers ← fieldOr? fields "servers" c.servers (readServers? d)
  some { c with reverseLookup, servers }

/-- The version of a file and the settings in it, which are not checked yet. -/
def ofDocument? (d : Document) : Option (Option Nat × Config) := do
  let fields ← d.fields? ["version", "cache", "dns"] d.root
  let version ← section? fields "version" (Node.natural? (Numeral.limit 32))
  let c : Config := {}
  let c := (← section? fields "cache" (c.readLifetimes? d)).getD c
  let c := (← section? fields "dns" (c.readLookup? d)).getD c
  some (version, c)

def ofYaml (text : String) : Except Error Config :=
  match (Document.read? text).bind ofDocument? with
  | none => .error .notYaml
  | some (none, _) => .error .noVersion
  | some (some version, c) =>
    if version = supportedVersion then c.check.map fun () => c else .error (.unsupportedVersion version)

def writeServer (server : String) : List Char := "  - ".toList ++ Yaml.writeText 4 server

def writeServers (servers : List String) : List Char :=
  if servers.isEmpty then "  servers: []\n".toList
  else "  servers:\n".toList ++ servers.flatMap writeServer

def writeLifetime (name : String) (seconds : Nat) : List Char :=
  name.toList ++ ": ".toList ++ Numeral.render 10 seconds ++ ['\n']

def toYaml (c : Config) : String :=
  String.ofList <|
    "version: 1\ncache:\n".toList ++
    writeLifetime "  rdap_ttl_secs" c.rdapTtl ++
    writeLifetime "  dns_ttl_secs" c.dnsTtl ++
    writeLifetime "  http_ttl_secs" c.httpTtl ++
    "dns:\n  reverse_lookup: ".toList ++ (if c.reverseLookup then "true\n" else "false\n").toList ++
    writeServers c.servers

end Config
end AssetGraph

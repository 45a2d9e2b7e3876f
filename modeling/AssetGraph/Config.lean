import AssetGraph.Address.Endpoint
import AssetGraph.Numeral
import AssetGraph.Text.Blank

/-!
# Configuration

How long answers are kept, whether addresses are looked up in reverse, and the name servers. `check` accepts what can
be used; `override` takes single settings from variables.
-/
namespace AssetGraph

/-- The settings; lifetimes are in seconds. -/
structure Config where
  rdapTtl : Nat := 1800
  dnsTtl : Nat := 300
  httpTtl : Nat := 300
  reverseLookup : Bool := false
  servers : List String := ["1.1.1.1:53", "8.8.8.8:53", "8.8.4.4:53"]
  deriving DecidableEq, Repr

namespace Config

inductive Variable where
  | rdapTtl
  | dnsTtl
  | httpTtl
  | reverseLookup
  deriving DecidableEq, Repr

def Variable.name : Variable → String
  | rdapTtl => "NETGRAPH_RDAP_CACHE_TTL"
  | dnsTtl => "NETGRAPH_DNS_CACHE_TTL"
  | httpTtl => "NETGRAPH_HTTP_CACHE_TTL"
  | reverseLookup => "NETGRAPH_REVERSE_DNS"

def Variable.hint : Variable → String
  | reverseLookup => "Use true or false"
  | _ => "Expected a whole number of seconds"

inductive Error where
  | outOfRange (setting : String) (value : Nat)
  | noVersion
  | unsupportedVersion (found : Nat)
  | badVariable (v : Variable) (value : String)
  | notAnEndpoint (server : String)
  | notYaml
  | unreadable
  deriving DecidableEq, Repr

def leastTtl : Nat := 1

def greatestTtl : Nat := 86400

def supportedVersion : Nat := 1

namespace Error

/-- The text of an error; a text that is no YAML of the right shape, or no text at all, has none of its own. -/
def message? : Error → Option String
  | outOfRange setting value =>
    some ("Invalid range for field '" ++ setting ++ "': " ++ Numeral.text value ++ " not in " ++
      Numeral.text leastTtl ++ "..=" ++ Numeral.text greatestTtl ++
      ". Cache entries must live between one second and one day")
  | noVersion =>
    some ("Missing 'version' field in configuration file. " ++
      "Add 'version: 1' to the top of your YAML file.")
  | unsupportedVersion found =>
    some ("Unsupported configuration version " ++ Numeral.text found ++ ". Supported versions: " ++
      Numeral.text supportedVersion)
  | badVariable v value =>
    some ("Invalid value '" ++ value ++ "' for environment variable " ++ v.name ++ ". " ++ v.hint)
  | notAnEndpoint server =>
    some ("Validation error: dns.servers entry '" ++ server ++ "' is not an ip:port address")
  | notYaml => none
  | unreadable => none

end Error

def checkTtl (setting : String) (value : Nat) : Except Error Unit :=
  if leastTtl ≤ value ∧ value ≤ greatestTtl then .ok () else .error (.outOfRange setting value)

def checkServers : List String → Except Error Unit
  | [] => .ok ()
  | server :: rest => if Address.isEndpoint server then checkServers rest else .error (.notAnEndpoint server)

/-- Accepts settings that can be used, or names the first that cannot. -/
def check (c : Config) : Except Error Unit := do
  checkTtl "cache.rdap_ttl_secs" c.rdapTtl
  checkTtl "cache.dns_ttl_secs" c.dnsTtl
  checkTtl "cache.http_ttl_secs" c.httpTtl
  checkServers c.servers

/-- A number of seconds of at most 64 bits, with blanks around it allowed. -/
def readSeconds? (value : String) : Option Nat :=
  Numeral.readUnsigned? (Numeral.limit 64) (Text.trim value.toList)

/-- A truth value in one of four spellings each, in any case, with blanks around it allowed. -/
def readFlag? (value : String) : Option Bool :=
  let word := Text.asciiLower (String.ofList (Text.trim value.toList))
  if ["1", "true", "yes", "on"].contains word then some true
  else if ["0", "false", "no", "off"].contains word then some false
  else none

def assign (c : Config) (v : Variable) (value : String) : Except Error Config :=
  let read? : Option Config := match v with
    | .rdapTtl => (readSeconds? value).map fun n => { c with rdapTtl := n }
    | .dnsTtl => (readSeconds? value).map fun n => { c with dnsTtl := n }
    | .httpTtl => (readSeconds? value).map fun n => { c with httpTtl := n }
    | .reverseLookup => (readFlag? value).map fun b => { c with reverseLookup := b }
  match read? with
  | some c => .ok c
  | none => .error (.badVariable v value)

/-- Assigns the variables that are defined, in order, up to the first bad value. -/
def assignAll (source : String → Option String) : List Variable → Config → Option Error × Config
  | [], c => (none, c)
  | v :: rest, c =>
    match source v.name with
    | none => assignAll source rest c
    | some value =>
      match c.assign v value with
      | .ok c => assignAll source rest c
      | .error e => (some e, c)

/-- Takes settings from variables and checks the result. What was assigned before an error stays. -/
def override (source : String → Option String) (c : Config) : Option Error × Config :=
  match assignAll source [.rdapTtl, .dnsTtl, .httpTtl, .reverseLookup] c with
  | (some e, c) => (some e, c)
  | (none, c) =>
    match c.check with
    | .ok () => (none, c)
    | .error e => (some e, c)

/-- The name servers to use: the listed ones, or the usual ones when none is listed. -/
def nameServers (c : Config) : List String :=
  if c.servers.isEmpty then ({} : Config).servers else c.servers

def milliseconds (seconds : Nat) : Nat := seconds * 1000

end Config
end AssetGraph

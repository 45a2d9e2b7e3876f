import AssetGraph.Json.Decode
import AssetGraph.Text

/-!
# Contact cards

A jCard is `["vcard", properties]`, each property a list of name, parameters, value type and one or more values.
`Card.details` gives the filled-in fields under their display names.
-/
namespace AssetGraph.Rdap

open Json

namespace Card

/-- One property; the name is in lower case. -/
structure Property where
  name : String
  parameters : List (String × Json)
  valueType : String
  values : List Json

mutual

/-- One text for a value: lists are joined with commas, and null, objects and empty texts add nothing. -/
def flatten : Json → String
  | string s => s
  | number n => String.ofList n.render
  | .bool b => boolText b
  | array items => Text.join ", " (flattenItems items)
  | _ => ""

def flattenItems : List Json → List String
  | [] => []
  | item :: rest => if flatten item = "" then flattenItems rest else flatten item :: flattenItems rest

end

namespace Property

def parameter (p : Property) (key : String) : List String :=
  match (object p.parameters).member? key with
  | some (string s) => [s]
  | some (array items) => items.filterMap string?
  | _ => []

def text (p : Property) : String := Text.join " " (flattenItems p.values)

def isFax (p : Property) : Bool := (p.parameter "type").contains "fax"

/-- Reads a property of at least four elements; a wrongly typed name, parameter list or value type counts as
empty. -/
def decode : Json → Decoded Property
  | array (name :: parameters :: valueType :: value :: values) =>
    .ok
      { name := Text.asciiLower (name.string?.getD "")
        parameters := match parameters with
          | object members => members
          | _ => []
        valueType := valueType.string?.getD ""
        values := value :: values }
  | _ => .error .shortCardProperty

end Property
end Card

structure Card where
  properties : List Card.Property

namespace Card

def decode : Json → Decoded Card
  | array [string tag, array properties] =>
    if tag = "vcard" then (properties.mapM Property.decode).map Card.mk else .error .notACard
  | _ => .error .notACard

def get (c : Card) (name : String) : List Property :=
  c.properties.filter fun p => p.name == Text.asciiLower name

def firstText (c : Card) (name : String) : String :=
  ((c.get name).head?.map Property.text).getD ""

/-- The components that a structured address has, in their order. -/
inductive AddressPart where
  | poBox
  | extended
  | street
  | locality
  | region
  | postalCode
  | country
  deriving DecidableEq, Repr

def AddressPart.position : AddressPart → Nat
  | poBox => 0
  | extended => 1
  | street => 2
  | locality => 3
  | region => 4
  | postalCode => 5
  | country => 6

def addressPart (c : Card) (part : AddressPart) : String :=
  match (c.get "adr").head?.bind fun p => p.values.head? with
  | some (array components) => (components[part.position]?.map flatten).getD ""
  | _ => ""

def name (c : Card) : String := c.firstText "fn"

/-- The first telephone number that is not a fax number. -/
def tel (c : Card) : String :=
  (((c.get "tel").find? fun p => !p.isFax).map Property.text).getD ""

def fax (c : Card) : String :=
  (((c.get "tel").find? Property.isFax).map Property.text).getD ""

def email (c : Card) : String := c.firstText "email"

def org (c : Card) : String := c.firstText "org"

def fields (c : Card) : List (String × String) :=
  [("Name", c.name), ("POBox", c.addressPart .poBox), ("ExtendedAddress", c.addressPart .extended),
    ("StreetAddress", c.addressPart .street), ("Locality", c.addressPart .locality),
    ("Region", c.addressPart .region), ("PostalCode", c.addressPart .postalCode),
    ("Country", c.addressPart .country), ("Tel", c.tel), ("Fax", c.fax), ("Email", c.email), ("Org", c.org)]

def details (c : Card) : List (String × String) :=
  c.fields.filter fun field => field.2 ≠ ""

end Card
end AssetGraph.Rdap

import AssetGraph.Text

/-!
# DNS names

A name is fully qualified when it ends in a point. `candidates` lists the names under which the domain of a host may
be registered, the longest first.
-/
namespace AssetGraph.Dns

/-- The name without one final point. -/
def trimName (name : String) : String := String.ofList (Text.dropFinal '.' name.toList)

/-- The name with exactly one final point more than its trimmed form. -/
def qualified (name : String) : String := trimName name ++ "."

def labels (name : String) : List String :=
  ((Text.splitAll '.' (Text.dropFinal '.' name.toList)).filter (· ≠ [])).map String.ofList

/-- The names that keep at least two of the labels at the end. -/
def suffixes : List String → List String
  | [] => []
  | [_] => []
  | label :: next :: rest => Text.join "." (label :: next :: rest) :: suffixes (next :: rest)

/-- The names to ask for when looking for the domain of a host; the bare last label is not among them. -/
def candidates (name : String) : List String := suffixes (labels name)

example : candidates "www.example.co.uk." = ["www.example.co.uk", "example.co.uk", "co.uk"] := by decide +kernel

end AssetGraph.Dns

/-!
# What a document is made of

Indentation shows in the tokens: a `blockSequence` or `blockMapping` is opened where the text moves to the right and
a `blockEnd` closes it where the text moves back.
-/
namespace AssetGraph.Yaml

inductive Style where
  | plain
  | singleQuoted
  | doubleQuoted
  | literal
  | folded
  deriving DecidableEq, Repr

structure Scalar where
  text : String
  style : Style := .plain
  tag? : Option String := none
  deriving DecidableEq, Repr

/-- A tag as it is written: a handle that stands for the start of the tag, and the rest. -/
structure TagText where
  handle : String
  suffix : String
  deriving DecidableEq, Repr

inductive Directive where
  | version (major minor : Nat)
  | tag (handle : String) (start : String)
  deriving DecidableEq, Repr

inductive Token where
  | directive (d : Directive)
  | documentStart
  | documentEnd
  | blockSequence
  | blockMapping
  | blockEnd
  | flowSequence
  | flowSequenceEnd
  | flowMapping
  | flowMappingEnd
  | blockEntry
  | flowEntry
  | key
  | value
  | alias (name : String)
  | anchor (name : String)
  | tag (t : TagText)
  | scalar (s : Scalar)
  deriving DecidableEq, Repr

end AssetGraph.Yaml

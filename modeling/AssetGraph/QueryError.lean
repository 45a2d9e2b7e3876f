/-!
# Query errors

Every failed query has a kind, a message and the context in which it failed. Only failures that the world outside
decides, a missing object or a failed exchange, may be kept as answers.
-/
namespace AssetGraph

inductive ErrorKind where
  | notFound
  | noScope
  | malformedInput
  | exchangeFailed
  | unexpectedResponse
  deriving DecidableEq, Repr

namespace ErrorKind

def word : ErrorKind → String
  | notFound => "not_found"
  | noScope => "no_scope"
  | malformedInput => "malformed_input"
  | exchangeFailed => "upstream"
  | unexpectedResponse => "unexpected_response"

def ofWord? (w : String) : Option ErrorKind :=
  [notFound, noScope, malformedInput, exchangeFailed, unexpectedResponse].find? fun k => k.word = w

/-- Whether an error of this kind may be kept and given again. -/
def isCacheable : ErrorKind → Bool
  | notFound => true
  | exchangeFailed => true
  | _ => false

end ErrorKind

structure QueryError where
  kind : ErrorKind
  message : String
  scope : Option String := none
  itemType : Option String := none
  source : Option String := none
  deriving DecidableEq, Repr

namespace QueryError

def isCacheable (e : QueryError) : Bool := e.kind.isCacheable

/-- Fills in what the error does not yet say about its context. -/
def inContext (e : QueryError) (scope itemType source : String) : QueryError :=
  { e with
    scope := e.scope <|> some scope
    itemType := e.itemType <|> some itemType
    source := e.source <|> some source }

def unservedScope (scope : String) : QueryError :=
  { kind := .noScope
    message := "Scope '" ++ scope ++ "' is not served by this adapter"
    scope := some scope }

def render (e : QueryError) : String :=
  "[" ++ e.kind.word ++ "] " ++ e.message

end QueryError
end AssetGraph

import AssetGraph.Text

/-!
# HTTP targets

The scheme, the authority and the host of an `http` or `https` URL. The scheme is matched without regard to case, and
the long s counts as a case of `s`. `resolve?` follows locations that are absolute, relative to the scheme or
relative to the root.
-/
namespace AssetGraph.Http

/-- `origin` is the scheme and the authority, `host` the authority without user and port number. -/
structure Target where
  origin : String
  scheme : String
  host : String
  deriving DecidableEq, Repr

/-- Whether a character is a case of the ASCII letter `letter`. -/
def isCaseOf (letter c : Char) : Bool :=
  c.toLower == letter || (letter == 's' && c == 'ſ')

def takeWord? : List Char → List Char → Option (List Char × List Char)
  | [], rest => some ([], rest)
  | _ :: _, [] => none
  | letter :: word, c :: rest =>
    if isCaseOf letter c then (takeWord? word rest).map fun (taken, rest) => (c :: taken, rest) else none

def splitScheme? (cs : List Char) : Option (List Char × List Char) := do
  let (scheme, rest) ← takeWord? "https".toList cs <|> takeWord? "http".toList cs
  let rest ← Text.dropStart? "://".toList rest
  some (scheme, rest)

def endsAuthority (c : Char) : Bool := c == '/' || c == '?' || c == '#'

/-- The scheme and the authority of an `http` or `https` URL. -/
def splitUrl? (s : String) : Option (List Char × List Char) :=
  (splitScheme? s.toList).map fun (scheme, rest) => (scheme, rest.takeWhile fun c => !endsAuthority c)

/-- The host of an authority: after the last `@`, inside brackets or before the first colon. -/
def hostOf? (authority : List Char) : Option (List Char) :=
  let hostPort := match Text.splitLast? '@' authority with
    | some (_, after) => after
    | none => authority
  match hostPort with
  | '[' :: rest => (Text.splitFirst? ']' rest).map Prod.fst
  | _ => some (hostPort.takeWhile (· ≠ ':'))

namespace Target

def parse? (s : String) : Option Target := do
  let (scheme, authority) ← splitUrl? s
  let host ← hostOf? authority
  if host = [] then none
  else
    let scheme := Text.asciiLower (String.ofList scheme)
    some ⟨scheme ++ "://" ++ String.ofList authority, scheme, Text.asciiLower (String.ofList host)⟩

/-- The URL that a location means when a server at the target gives it; one relative to a path means none. -/
def resolve? (t : Target) (location : String) : Option String :=
  if (splitUrl? location).isSome then some location
  else
    match location.toList with
    | '/' :: '/' :: _ => some (t.scheme ++ ":" ++ location)
    | '/' :: _ => some (t.origin ++ location)
    | _ => none

end Target
end AssetGraph.Http

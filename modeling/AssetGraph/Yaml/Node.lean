import AssetGraph.Yaml.Anchor
import AssetGraph.Yaml.Layout

/-!
# Nodes

A document holds one node: a scalar, a sequence or a mapping, with aliases in it for nodes that have an anchor.
`Document.read?` reads a text with one document; a text without any counts as an empty scalar. `Document.follow` gives
the node that an alias stands for.
-/
namespace AssetGraph.Yaml

inductive Node where
  | scalar (s : Scalar)
  | sequence (items : List Node)
  | mapping (entries : List (Node × Node))
  /-- Stands for the node with an anchor of this number. -/
  | reference (number : Nat)
  deriving Repr, Inhabited

namespace Node

/-- What stands where a node is left out. -/
def empty : Node := scalar { text := "" }

/-- The tokens that are left, and what names in the document stand for. -/
structure Reading where
  tokens : List Token
  /-- Tag handles with the start of their tags. -/
  handles : List (String × String)
  anchors : Anchors Node := {}

namespace Reading

def goTo (r : Reading) (tokens : List Token) : Reading := { r with tokens }

/-- The whole tag; the handle of a tag written in full is empty. -/
def expand? (r : Reading) (tag : TagText) : Option String :=
  if tag.handle.isEmpty then some tag.suffix else (r.handles.lookup tag.handle).map (· ++ tag.suffix)

def start (r : Reading) (anchor? : Option String) : Reading :=
  match anchor? with
  | none => r
  | some name => { r with anchors := r.anchors.start name }

/-- Completes a node that started after `before` others with an anchor. -/
def complete (r : Reading) (anchor? : Option String) (before : Nat) (node : Node) : Reading :=
  if anchor?.isNone then r else { r with anchors := r.anchors.complete before node }

def properties (r : Reading) : Option String × Option TagText × Reading :=
  match r.tokens with
  | .anchor name :: .tag tag :: rest => (some name, some tag, r.goTo rest)
  | .tag tag :: .anchor name :: rest => (some name, some tag, r.goTo rest)
  | .anchor name :: rest => (some name, none, r.goTo rest)
  | .tag tag :: rest => (none, some tag, r.goTo rest)
  | _ => (none, none, r)

def next (r : Reading) : Reading := r.goTo (r.tokens.drop 1)

/-- Whether the next token is one of these, or there is none. -/
def isAt (r : Reading) (tokens : List Token) : Bool :=
  match r.tokens.head? with
  | none => true
  | some t => tokens.contains t

end Reading

def sequenceOf (read : List Node × Reading) : Node × Reading := (sequence read.1, read.2)

def mappingOf (read : List (Node × Node) × Reading) : Node × Reading := (mapping read.1, read.2)

mutual

/-- A node. In a block it may be a block itself, and after a key a sequence that is not indented. `fuel` bounds the
depth and length of what is read. -/
def readNode? (inBlock afterKey : Bool) : Nat → Reading → Option (Node × Reading)
  | 0, _ => none
  | fuel + 1, r =>
    match r.tokens with
    | .alias name :: rest => do
      let number ← r.anchors.number? name
      some (reference number, r.goTo rest)
    | _ => do
      let (anchor?, tagText?, r) := r.properties
      let tag? ← match tagText? with
        | none => some none
        | some tag => (r.expand? tag).map some
      let before := r.anchors.nodes.length
      let r := r.start anchor?
      let (node, r) ← match r.tokens with
        | .scalar s :: rest => some (scalar { s with tag? }, r.goTo rest)
        | .flowSequence :: rest => (readFlowItems? true fuel (r.goTo rest)).map sequenceOf
        | .flowMapping :: rest => (readFlowEntries? true fuel (r.goTo rest)).map mappingOf
        | tokens =>
          if afterKey && tokens.head? == some .blockEntry then (readPlainItems? fuel r).map sequenceOf
          else if inBlock && tokens.head? == some .blockSequence then (readBlockItems? fuel r.next).map sequenceOf
          else if inBlock && tokens.head? == some .blockMapping then (readBlockEntries? fuel r.next).map mappingOf
          else if anchor?.isSome || tag?.isSome then some (scalar { text := "", tag? }, r)
          else none
      some (node, r.complete anchor? before node)

/-- A node, unless what comes next belongs to the collection around it. -/
def readOptional? (inBlock afterKey : Bool) (stops : List Token) : Nat → Reading → Option (Node × Reading)
  | 0, _ => none
  | fuel + 1, r => if r.isAt stops then some (empty, r) else readNode? inBlock afterKey fuel r

/-- The items of a sequence up to the end of its block. -/
def readBlockItems? : Nat → Reading → Option (List Node × Reading)
  | 0, _ => none
  | fuel + 1, r =>
    match r.tokens with
    | .blockEnd :: rest => some ([], r.goTo rest)
    | .blockEntry :: rest => do
      let (item, r) ← readOptional? true false [.blockEntry, .blockEnd] fuel (r.goTo rest)
      let (items, r) ← readBlockItems? fuel r
      some (item :: items, r)
    | _ => none

/-- The items of a sequence that is not indented, up to something else. -/
def readPlainItems? : Nat → Reading → Option (List Node × Reading)
  | 0, _ => none
  | fuel + 1, r =>
    match r.tokens with
    | .blockEntry :: rest => do
      let (item, r) ← readOptional? true false [.blockEntry, .key, .value, .blockEnd] fuel (r.goTo rest)
      let (items, r) ← readPlainItems? fuel r
      some (item :: items, r)
    | _ => some ([], r)

/-- The entries of a mapping up to the end of its block. -/
def readBlockEntries? : Nat → Reading → Option (List (Node × Node) × Reading)
  | 0, _ => none
  | fuel + 1, r =>
    match r.tokens with
    | .blockEnd :: rest => some ([], r.goTo rest)
    | .key :: rest => do
      let (key, r) ← readOptional? true true [.key, .value, .blockEnd] fuel (r.goTo rest)
      let (value, r) ← match r.tokens with
        | .value :: rest => readOptional? true true [.key, .value, .blockEnd] fuel (r.goTo rest)
        | _ => some (empty, r)
      let (entries, r) ← readBlockEntries? fuel r
      some ((key, value) :: entries, r)
    | _ => none

/-- The items of a flow sequence up to its bracket; a comma stands before each but the first. A key makes an item a
mapping with one entry. -/
def readFlowItems? (atStart : Bool) : Nat → Reading → Option (List Node × Reading)
  | 0, _ => none
  | fuel + 1, r =>
    match r.tokens with
    | .flowSequenceEnd :: rest => some ([], r.goTo rest)
    | tokens => do
      let r ← if atStart then some r else if tokens.head? == some .flowEntry then some r.next else none
      match r.tokens with
      | .flowSequenceEnd :: rest => some ([], r.goTo rest)
      | _ =>
        let (item, r) ← match r.tokens with
          | .key :: rest => do
            let (key, r) ← readOptional? false false [.value, .flowEntry, .flowSequenceEnd] fuel (r.goTo rest)
            let (value, r) ← match r.tokens with
              | .value :: rest => readOptional? false false [.flowEntry, .flowSequenceEnd] fuel (r.goTo rest)
              | _ => some (empty, r)
            some (mapping [(key, value)], r)
          | _ => readNode? false false fuel r
        let (items, r) ← readFlowItems? false fuel r
        some (item :: items, r)

/-- The entries of a flow mapping up to its brace; a comma stands before each but the first, and an entry without a key
sign has an empty value. -/
def readFlowEntries? (atStart : Bool) : Nat → Reading → Option (List (Node × Node) × Reading)
  | 0, _ => none
  | fuel + 1, r =>
    match r.tokens with
    | .flowMappingEnd :: rest => some ([], r.goTo rest)
    | tokens => do
      let r ← if atStart then some r else if tokens.head? == some .flowEntry then some r.next else none
      match r.tokens with
      | .flowMappingEnd :: rest => some ([], r.goTo rest)
      | _ =>
        let (entry, r) ← match r.tokens with
          | .key :: rest => do
            let (key, r) ← readOptional? false false [.value, .flowEntry, .flowMappingEnd] fuel (r.goTo rest)
            let (value, r) ← match r.tokens with
              | .value :: rest => readOptional? false false [.flowEntry, .flowMappingEnd] fuel (r.goTo rest)
              | _ => some (empty, r)
            some ((key, value), r)
          | _ => do
            let (key, r) ← readNode? false false fuel r
            some ((key, empty), r)
        let (entries, r) ← readFlowEntries? false fuel r
        some (entry :: entries, r)

end

end Node

/-- A value, and the nodes in it that have an anchor. -/
structure Document where
  root : Node
  anchors : Anchors Node := {}
  deriving Repr

namespace Document

/-- The node that an alias stands for; every other node stands for itself. -/
def follow (d : Document) : Node → Node
  | .reference number => (d.anchors.node? number).getD .empty
  | node => node

def standardHandles : List (String × String) := [("!", "!"), ("!!", "tag:yaml.org,2002:")]

/-- The directives at the head of a document: at most one version, which must be supported, and one tag start for each
handle. Gives the handles and what follows. -/
def readDirectives? (versioned : Bool) (handles : List (String × String)) :
    List Token → Option (List (String × String) × List Token)
  | .directive (.version major minor) :: rest =>
    if versioned || major ≠ 1 || !(minor = 1 || minor = 2) then none else readDirectives? true handles rest
  | .directive (.tag handle start) :: rest =>
    if (handles.lookup handle).isSome then none else readDirectives? versioned ((handle, start) :: handles) rest
  | tokens => some (handles, tokens)

/-- A document from its first content on, and the tokens after it. -/
def readRoot? (handles : List (String × String)) (tokens : List Token) : Option (Document × List Token) :=
  (Node.readNode? true false (3 * tokens.length + 3) { tokens, handles }).map fun (root, r) =>
    (⟨root, r.anchors⟩, r.tokens)

/-- A document after its start mark, and the tokens after it. -/
def readContent? (handles : List (String × String)) (tokens : List Token) : Option (Document × List Token) :=
  let atEnd := match tokens with
    | [] | .directive _ :: _ | .documentStart :: _ | .documentEnd :: _ => true
    | _ => false
  if atEnd then some (⟨.empty, {}⟩, tokens) else readRoot? handles tokens

/-- The first document; a start mark stands before it if directives do. -/
def readFirst? (tokens : List Token) : Option (Document × List Token) :=
  match tokens with
  | .directive _ :: _ | .documentStart :: _ => do
    let (handles, tokens) ← readDirectives? false [] tokens
    match tokens with
    | .documentStart :: rest => readContent? (handles ++ standardHandles) rest
    | _ => none
  | _ => readRoot? standardHandles tokens

def ofTokens? (tokens : List Token) : Option Document :=
  if tokens.isEmpty then some ⟨.empty, {}⟩
  else do
    let (document, rest) ← readFirst? tokens
    if rest.all (· == .documentEnd) then some document else none

def read? (text : String) : Option Document := (tokens? text.toList).bind ofTokens?

end Document
end AssetGraph.Yaml

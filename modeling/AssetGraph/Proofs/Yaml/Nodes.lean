import AssetGraph.Proofs.Yaml.Documents
import AssetGraph.Yaml.Node

/-!
# Nodes from their tokens

What stands for a node in a block mapping: the token of a scalar, the brackets of an empty sequence, items with a hyphen each, and
again a block mapping. The keys of a mapping are the names of its fields.
-/
namespace AssetGraph.Yaml.Node

variable {tokens rest : List Token} {node : Node} {fieldTokens : List (String × List Token)} {fields : List (String × Node)}
  {scalars : List Scalar} {fuel : Nat} {r : Reading} {s : Scalar}

/-- Whether a value of a block mapping ends before these tokens. -/
def EndsValue (rest : List Token) : Prop := ∀ t ∈ rest.head?, t ∈ [Token.key, Token.blockEnd]

/-- Whether tokens stand for a node, as the value of a key. Every node takes a bound that its tokens suffice for. -/
structure ReadsAs (tokens : List Token) (node : Node) : Prop where
  starts : ∃ first more, tokens = first :: more ∧ first ∉ [Token.key, Token.value, Token.blockEnd]
  reads : ∀ fuel (r : Reading) rest, 2 * tokens.length ≤ fuel → r.tokens = tokens ++ rest → EndsValue rest →
    readNode? true true fuel r = some (node, r.goTo rest)

def FieldsReadAs : List (String × List Token) → List (String × Node) → Prop :=
  List.Forall₂ fun field field' => field.1 = field'.1 ∧ ReadsAs field.2 field'.2

def entryTokens (fields : List (String × List Token)) : List Token :=
  fields.flatMap fun field => .key :: .scalar { text := field.1 } :: .value :: field.2

def blockTokens (fields : List (String × List Token)) : List Token := .blockMapping :: (entryTokens fields ++ [.blockEnd])

def entriesOf (fields : List (String × Node)) : List (Node × Node) := fields.map fun field => (scalar { text := field.1 }, field.2)

@[simp] theorem Reading.tokens_goTo (r : Reading) (tokens : List Token) : (r.goTo tokens).tokens = tokens := rfl

@[simp] theorem Reading.goTo_goTo (r : Reading) (tokens rest : List Token) : (r.goTo tokens).goTo rest = r.goTo rest := rfl

theorem Reading.goTo_eq_self (h : r.tokens = rest) : r.goTo rest = r := by rw [← h]; rfl

theorem readNode?_scalar (inBlock afterKey : Bool) (htag : s.tag? = none) (htokens : r.tokens = .scalar s :: rest) :
    readNode? inBlock afterKey (fuel + 1) r = some (scalar s, r.goTo rest) := by
  obtain ⟨text, style, tag?⟩ := s
  obtain rfl : tag? = none := htag
  simp [readNode?, Reading.properties, Reading.start, Reading.complete, htokens]

theorem readOptional?_scalar (inBlock afterKey : Bool) {stops : List Token} (hstops : Token.scalar s ∉ stops) (htag : s.tag? = none)
    (htokens : r.tokens = .scalar s :: rest) : readOptional? inBlock afterKey stops (fuel + 2) r = some (scalar s, r.goTo rest) := by
  have hat : r.isAt stops = false := by simpa [Reading.isAt, htokens] using hstops
  rw [readOptional?, hat, readNode?_scalar inBlock afterKey htag htokens]
  rfl

theorem ReadsAs.readOptional? (h : ReadsAs tokens node) (hfuel : 2 * tokens.length ≤ fuel) (htokens : r.tokens = tokens ++ rest)
    (hrest : EndsValue rest) : Node.readOptional? true true [.key, .value, .blockEnd] (fuel + 1) r = some (node, r.goTo rest) := by
  have hat : r.isAt [.key, .value, .blockEnd] = false := by
    obtain ⟨first, more, rfl, hfirst⟩ := h.starts
    simpa [Reading.isAt, htokens] using hfirst
  rw [Node.readOptional?, hat]
  exact h.reads fuel r rest hfuel htokens hrest

theorem readsAs_scalar (htag : s.tag? = none) : ReadsAs [.scalar s] (scalar s) where
  starts := ⟨_, [], rfl, by simp⟩
  reads fuel r rest hfuel htokens _ := by
    obtain ⟨fuel, rfl⟩ := Nat.exists_eq_add_one.mpr (Nat.lt_of_lt_of_le Nat.two_pos hfuel)
    exact readNode?_scalar true true htag htokens

theorem readsAs_noItems : ReadsAs [.flowSequence, .flowSequenceEnd] (sequence []) where
  starts := ⟨_, _, rfl, by simp⟩
  reads fuel r rest hfuel htokens _ := by
    obtain ⟨fuel, rfl⟩ := Nat.exists_eq_add_of_le' hfuel
    simp [readNode?, readFlowItems?, Reading.properties, Reading.start, Reading.complete, htokens, sequenceOf]

/-- Items are read up to what ends the value that they are. -/
theorem readPlainItems?_scalars (htags : ∀ s ∈ scalars, s.tag? = none) (hrest : EndsValue rest) (hfuel : scalars.length + 2 ≤ fuel)
    (htokens : r.tokens = (scalars.flatMap fun s => [.blockEntry, .scalar s]) ++ rest) :
    readPlainItems? fuel r = some (scalars.map scalar, r.goTo rest) := by
  induction scalars generalizing fuel r with
  | nil =>
    obtain ⟨fuel, rfl⟩ := Nat.exists_eq_add_of_le' hfuel
    have htokens : r.tokens = rest := htokens
    rw [readPlainItems?.eq_def, Reading.goTo_eq_self htokens]
    simp only
    split
    · rename_i hentry
      have hends := hrest .blockEntry (by rw [← htokens, hentry]; rfl)
      simp at hends
    · rfl
  | cons s scalars ih =>
    obtain ⟨fuel, rfl⟩ := Nat.exists_eq_add_of_le' hfuel
    obtain ⟨htag, hothers⟩ := List.forall_mem_cons.mp htags
    have hmore : readPlainItems? (fuel + scalars.length + 2) (r.goTo ((scalars.flatMap fun s => [.blockEntry, .scalar s]) ++ rest)) =
        some (scalars.map scalar, r.goTo rest) := ih hothers (by omega) rfl
    have hitem : readOptional? true false [.blockEntry, .key, .value, .blockEnd] (fuel + scalars.length + 2)
        (r.goTo (.scalar s :: ((scalars.flatMap fun s => [.blockEntry, .scalar s]) ++ rest))) =
        some (scalar s, r.goTo ((scalars.flatMap fun s => [.blockEntry, .scalar s]) ++ rest)) :=
      readOptional?_scalar true false (by simp) htag rfl
    have htokens : r.tokens = .blockEntry :: .scalar s :: ((scalars.flatMap fun s => [.blockEntry, .scalar s]) ++ rest) := htokens
    have hsucc : fuel + ((s :: scalars).length + 2) = fuel + scalars.length + 2 + 1 := by
      rw [List.length_cons]
      omega
    rw [hsucc, readPlainItems?]
    simp [htokens, hitem, hmore]

theorem readsAs_items (hne : scalars ≠ []) (htags : ∀ s ∈ scalars, s.tag? = none) :
    ReadsAs (scalars.flatMap fun s => [.blockEntry, .scalar s]) (sequence (scalars.map scalar)) where
  starts := by
    obtain ⟨s, more, rfl⟩ := List.exists_cons_of_ne_nil hne
    exact ⟨_, _, rfl, by simp⟩
  reads fuel r rest hfuel htokens hrest := by
    have hlength : (scalars.flatMap fun s => [Token.blockEntry, .scalar s]).length = 2 * scalars.length := by
      simp [List.length_flatMap, Nat.mul_comm]
    have hpos := List.length_pos_iff.mpr hne
    obtain ⟨fuel, rfl⟩ : ∃ less, fuel = less + 1 := Nat.exists_eq_add_one.mpr (by omega)
    have hitems : readPlainItems? fuel r = some (scalars.map scalar, r.goTo rest) :=
      readPlainItems?_scalars htags hrest (by omega) htokens
    obtain ⟨s, more, rfl⟩ := List.exists_cons_of_ne_nil hne
    simp only [List.flatMap_cons, List.cons_append] at htokens
    simp [readNode?, Reading.properties, Reading.start, Reading.complete, htokens, hitems, sequenceOf]

theorem FieldsReadAs.reads (h : FieldsReadAs fieldTokens fields) (hfuel : 2 * (entryTokens fieldTokens).length + 1 ≤ fuel)
    (htokens : r.tokens = entryTokens fieldTokens ++ .blockEnd :: rest) :
    readBlockEntries? fuel r = some (entriesOf fields, r.goTo rest) := by
  induction h generalizing fuel r with
  | nil =>
    obtain ⟨fuel, rfl⟩ := Nat.exists_eq_add_of_le' hfuel
    have htokens : r.tokens = .blockEnd :: rest := htokens
    simp [readBlockEntries?, htokens, entriesOf]
  | @cons field field' more fields hfield hmore ih =>
    obtain ⟨name, tokens⟩ := field
    obtain ⟨name', node⟩ := field'
    obtain ⟨rfl, hvalue⟩ : name = name' ∧ ReadsAs tokens node := hfield
    have hsplit : entryTokens ((name, tokens) :: more) = .key :: .scalar { text := name } :: .value :: (tokens ++ entryTokens more) := rfl
    rw [hsplit] at hfuel htokens
    simp only [List.length_cons, List.length_append] at hfuel
    obtain ⟨fuel, rfl⟩ : ∃ less, fuel = less + 3 := Nat.exists_eq_add_of_le' (by omega)
    have hends : EndsValue (entryTokens more ++ .blockEnd :: rest) := by
      cases hmore with
      | nil => simp [EndsValue, entryTokens]
      | cons => simp [EndsValue, entryTokens]
    have hread : readOptional? true true [.key, .value, .blockEnd] (fuel + 2)
        (r.goTo (tokens ++ (entryTokens more ++ .blockEnd :: rest))) = some (node, r.goTo (entryTokens more ++ .blockEnd :: rest)) :=
      hvalue.readOptional? (by omega) rfl hends
    have hname : readOptional? true true [.key, .value, .blockEnd] (fuel + 2)
        (r.goTo (.scalar { text := name } :: .value :: (tokens ++ (entryTokens more ++ .blockEnd :: rest)))) =
        some (scalar { text := name }, r.goTo (.value :: (tokens ++ (entryTokens more ++ .blockEnd :: rest)))) :=
      readOptional?_scalar true true (by simp) rfl rfl
    have hothers : readBlockEntries? (fuel + 2) (r.goTo (entryTokens more ++ .blockEnd :: rest)) =
        some (entriesOf fields, r.goTo rest) := ih (by omega) rfl
    simp only [List.cons_append, List.append_assoc] at htokens
    rw [readBlockEntries?]
    simp [htokens, hname, hread, hothers, entriesOf]

theorem readNode?_mapping (afterKey : Bool) (h : FieldsReadAs fieldTokens fields) (hfuel : 2 * (blockTokens fieldTokens).length ≤ fuel)
    (htokens : r.tokens = blockTokens fieldTokens ++ rest) :
    readNode? true afterKey fuel r = some (mapping (entriesOf fields), r.goTo rest) := by
  simp only [blockTokens, List.length_cons, List.length_append, List.length_nil] at hfuel
  simp only [blockTokens, List.cons_append, List.append_assoc, List.nil_append] at htokens
  obtain ⟨fuel, rfl⟩ : ∃ less, fuel = less + 1 := Nat.exists_eq_add_of_le' (by omega)
  have hentries : readBlockEntries? fuel (r.goTo (entryTokens fieldTokens ++ .blockEnd :: rest)) =
      some (entriesOf fields, r.goTo rest) := h.reads (by omega) rfl
  simp [readNode?, Reading.properties, Reading.start, Reading.complete, Reading.next, htokens, hentries, mappingOf]

theorem readsAs_mapping (h : FieldsReadAs fieldTokens fields) : ReadsAs (blockTokens fieldTokens) (mapping (entriesOf fields)) where
  starts := ⟨_, _, rfl, by simp⟩
  reads _ _ _ hfuel htokens _ := readNode?_mapping true h hfuel htokens

end AssetGraph.Yaml.Node

namespace AssetGraph.Yaml.Document

variable {fieldTokens : List (String × List Token)} {fields : List (String × Node)}

theorem ofTokens?_mapping (h : Node.FieldsReadAs fieldTokens fields) :
    ofTokens? (Node.blockTokens fieldTokens) = some ⟨.mapping (Node.entriesOf fields), {}⟩ := by
  have hroot : Node.readNode? true false (3 * (Node.blockTokens fieldTokens).length + 3)
      { tokens := Node.blockTokens fieldTokens, handles := standardHandles } =
      some (.mapping (Node.entriesOf fields), { tokens := [], handles := standardHandles }) :=
    Node.readNode?_mapping false h (by omega) (List.append_nil _).symm
  have hfirst : readFirst? (Node.blockTokens fieldTokens) = readRoot? standardHandles (Node.blockTokens fieldTokens) := rfl
  have hsome : (Node.blockTokens fieldTokens).isEmpty = false := rfl
  simp only [ofTokens?, hsome, Bool.false_eq_true, if_false, hfirst, readRoot?, hroot]
  rfl

end AssetGraph.Yaml.Document

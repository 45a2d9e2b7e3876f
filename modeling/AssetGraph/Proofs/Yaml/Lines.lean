import AssetGraph.Proofs.Yaml.Progress

/-!
# Documents of lines

A document in block style has one key or item on each line. What is read of such a line is its key, or a hyphen, and the content after
it; blocks are closed and opened by the column of the line alone.
-/
namespace AssetGraph.Yaml

/-- What stands on a line after the colon or the hyphen. -/
inductive Content where
  | nothing
  | plain (word : PlainWord)
  | quoted (word : Unbroken)
  | noItems

structure Key extends PlainWord where
  length_le : chars.length ≤ 1024

/-- An entry of a mapping, or without a key an item of a sequence. -/
structure Line where
  column : Nat
  key? : Option Key
  content : Content

/-- The blocks that are open, each by the column after its own, and the tokens so far. Both have the last one first. -/
structure Outline where
  margins : List Nat := []
  tokens : List Token := []

variable {rest next : List Char} {line column : Nat} {o : Outline} {l : Line} {lines : List Line} {s s' t : Layout}

namespace Content

def write (indent : Nat) : Content → List Char
  | nothing => []
  | plain word => ' ' :: word.chars
  | quoted word => ' ' :: Quoted.writeSingle indent word.chars
  | noItems => [' ', '[', ']']

def tokens : Content → List Token
  | nothing => []
  | plain word => [.scalar { text := word.text }]
  | quoted word => [.scalar { text := word.text, style := .singleQuoted }]
  | noItems => [.flowSequenceEnd, .flowSequence]

/-- Whether the next line could go on with the content if it started at `column`, in a block at the column before `margin`. -/
def EndsBefore (column margin : Nat) : Content → Prop
  | plain _ => column < margin
  | _ => True

theorem endsBefore_of_lt {margin : Nat} (h : column < margin) (content : Content) : content.EndsBefore column margin := by
  cases content with
  | plain => exact h
  | _ => exact True.intro

end Content

namespace Line

def mark (l : Line) : List Char :=
  match l.key? with
  | some key => key.chars ++ [':']
  | none => ['-']

def body (l : Line) : List Char := l.mark ++ l.content.write (l.column + 2)

def write (l : Line) : List Char := List.replicate l.column ' ' ++ l.body ++ ['\n']

def start (line : Nat) : List Line → Cursor
  | [] => ⟨[], line, 0⟩
  | l :: lines => ⟨l.body ++ '\n' :: lines.flatMap write, line, l.column⟩

end Line

namespace Outline

def margin (o : Outline) : Nat := o.margins.headD 0

def push (o : Outline) (tokens : List Token) : Outline := { o with tokens := tokens ++ o.tokens }

def close (o : Outline) (column : Nat) : Outline where
  margins := o.margins.dropWhile (column < ·)
  tokens := (o.margins.takeWhile (column < ·)).map (fun _ => Token.blockEnd) ++ o.tokens

/-- A block at `column`, unless that is the column of the innermost one. -/
def openBlock (o : Outline) (block : Token) (column : Nat) : Outline :=
  if o.margin ≤ column then { margins := (column + 1) :: o.margins, tokens := block :: o.tokens } else o

def addLine (o : Outline) (l : Line) : Outline :=
  match l.key? with
  | some key =>
    ((o.close (l.column + 1)).openBlock .blockMapping l.column).push
      (l.content.tokens ++ [.value, .scalar { text := key.text }, .key])
  | none => ((o.close (l.column + 1)).openBlock .blockSequence l.column).push (l.content.tokens ++ [.blockEntry])

def nodeCandidate? (o : Outline) (line column : Nat) (keyAllowed : Bool) : Option Candidate :=
  if keyAllowed then some { position := o.tokens.length, line, column, required := decide (o.margin = column + 1) } else none

def layout (o : Outline) (place : Cursor) (candidate? : Option Candidate := none) (keyAllowed : Bool := true) : Layout :=
  { place, tokens := o.tokens, margins := o.margins, candidate?, keyAllowed }

def flowLayout (o : Outline) (place : Cursor) (around? : Option Candidate) : Layout :=
  { place, tokens := o.tokens, margins := o.margins, outer := [around?] }

theorem close_eq_self (h : o.margin ≤ column) : o.close column = o := by
  obtain ⟨margins, tokens⟩ := o
  cases margins with
  | nil => rfl
  | cons first margins =>
    have hfirst : first ≤ column := h
    simp [close, Nat.not_lt.mpr hfirst]

theorem margin_close_le (o : Outline) (column : Nat) : (o.close column).margin ≤ column := by
  have hfirst := List.head?_dropWhile_not (fun m => decide (column < m)) o.margins
  rw [margin, close, List.headD_eq_head?_getD]
  cases hhead : (o.margins.dropWhile (column < ·)).head? with
  | none => exact Nat.zero_le _
  | some first =>
    rw [hhead] at hfirst
    simpa using hfirst

theorem margin_push (o : Outline) (tokens : List Token) : (o.push tokens).margin = o.margin := rfl

/-- On a line the innermost block becomes the one at its column. -/
theorem margin_openBlock (h : o.margin ≤ column + 1) (block : Token) : (o.openBlock block column).margin = column + 1 := by
  unfold openBlock
  split
  · rfl
  · omega

end Outline

open Layout

section Settling

variable {candidate? left? : Option Candidate} {keyAllowed : Bool} {count : Nat}

theorem settle?_spaces (count : Nat) (hrest : StartsLine rest) (hleft : refresh? ⟨rest, line, column + count⟩ candidate? = some left?) :
    (o.layout ⟨List.replicate count ' ' ++ rest, line, column⟩ candidate? keyAllowed).settle? =
      some ((o.close (column + count + 1)).layout ⟨rest, line, column + count⟩ left? keyAllowed) := by
  simp [settle?, skipGap, Outline.layout, inFlow, skipGapFrom_replicate _ count hrest, refreshAll?, hleft, close, closeFrom, Outline.close]

theorem settle?_layout (hrest : StartsLine rest) (hleft : refresh? ⟨rest, line, column⟩ candidate? = some left?) :
    (o.layout ⟨rest, line, column⟩ candidate? keyAllowed).settle? =
      some ((o.close (column + 1)).layout ⟨rest, line, column⟩ left? keyAllowed) :=
  settle?_spaces 0 hrest hleft

/-- One space closes no block that its line is inside of. -/
theorem settle?_space (hrest : StartsLine rest) (hdeep : o.margin ≤ column) :
    (o.layout ⟨' ' :: rest, line, column⟩ none keyAllowed).settle? = some (o.layout ⟨rest, line, column + 1⟩ none keyAllowed) := by
  have hclose : o.close (column + 1 + 1) = o := o.close_eq_self (by omega)
  have hsettle : (o.layout ⟨' ' :: rest, line, column⟩ none keyAllowed).settle? =
      some ((o.close (column + 1 + 1)).layout ⟨rest, line, column + 1⟩ none keyAllowed) := settle?_spaces 1 hrest rfl
  rw [hsettle, hclose]

theorem settle?_lineEnd (hrest : StartsLine rest) (hleft : refresh? ⟨rest, line + 1, count⟩ candidate? = some left?) :
    (o.layout ⟨'\n' :: (List.replicate count ' ' ++ rest), line, column⟩ candidate? keyAllowed).settle? =
      some ((o.close (count + 1)).layout ⟨rest, line + 1, count⟩ left?) := by
  simp [settle?, skipGap, Outline.layout, inFlow, skipGapFrom_lineEnd count hrest, refreshAll?, hleft, close, closeFrom, Outline.close]

theorem settle?_flow (hrest : StartsLine rest) (hleft : refresh? ⟨rest, line, column⟩ candidate? = some left?) :
    (o.flowLayout ⟨rest, line, column⟩ candidate?).settle? = some (o.flowLayout ⟨rest, line, column⟩ left?) := by
  have hskip : skipGapFrom true false true line column rest = (⟨rest, line, column⟩, true) := skipGapFrom_replicate true 0 hrest
  have hnone : refresh? ⟨rest, line, column⟩ none = some none := rfl
  simp [settle?, skipGap, Outline.flowLayout, inFlow, hskip, refreshAll?, hnone, hleft, close, closeFrom]

/-- A candidate is kept up to the 1024th character after its start. -/
theorem refresh?_nodeCandidate? {start : Nat} (hcolumn : column ≤ start + 1024) :
    refresh? ⟨rest, line, column⟩ (o.nodeCandidate? line start keyAllowed) = some (o.nodeCandidate? line start keyAllowed) := by
  cases keyAllowed with
  | false => rfl
  | true => exact refresh?_of_near (Nat.le_refl line) hcolumn

end Settling

theorem Line.startsLine_body (l : Line) (rest : List Char) : StartsLine (l.body ++ rest) := by
  obtain ⟨column, key?, content⟩ := l
  cases key? with
  | none => exact startsLine_cons (by decide) _
  | some key =>
    simp only [body, mark, List.append_assoc]
    exact key.startsLine _

theorem Line.exists_start (line : Nat) (lines : List Line) :
    ∃ rest count, Line.start line lines = ⟨rest, line, count⟩ ∧ StartsLine rest ∧
      lines.flatMap Line.write = List.replicate count ' ' ++ rest := by
  cases lines with
  | nil => exact ⟨[], 0, rfl, by simp [StartsLine], rfl⟩
  | cons l lines => exact ⟨_, l.column, rfl, l.startsLine_body _, by simp [write]⟩

/-- Whether a candidate can be given up on the lines after `line`. -/
def Passes (line : Nat) (candidate? : Option Candidate) : Prop := ∀ c ∈ candidate?, c.line ≤ line ∧ c.required = false

theorem Passes.refresh? {candidate? : Option Candidate} (h : Passes line candidate?) (rest : List Char) (count : Nat) :
    Layout.refresh? ⟨rest, line + 1, count⟩ candidate? = some none := by
  cases candidate? with
  | none => rfl
  | some c =>
    obtain ⟨hline, hrequired⟩ := h c rfl
    exact refresh?_of_older (Nat.lt_succ_of_le hline) hrequired

section Contents

variable {candidate? : Option Candidate} {keyAllowed : Bool} {indent : Nat}

/-- From the end of a line on the next line is read, whether or not a key was possible before. -/
theorem leads_lineEnd (hcandidate : Passes line candidate?) :
    Leads (o.layout ⟨'\n' :: lines.flatMap Line.write, line, column⟩ candidate? keyAllowed)
      (o.layout (Line.start (line + 1) lines)) := by
  obtain ⟨rest, count, hstart, hrest, hwrite⟩ := Line.exists_start (line + 1) lines
  rw [hwrite, hstart]
  refine leads_of_settle?_eq ?_ ?_
  · exact (settle?_lineEnd hrest (hcandidate.refresh? rest count)).trans (settle?_layout hrest rfl).symm
  · simp only [Outline.layout, List.length_cons, List.length_append, List.length_replicate]
    omega

theorem markCandidate?_layout (place : Cursor) :
    (o.layout place none keyAllowed).markCandidate? =
      some (o.layout place (o.nodeCandidate? place.line place.column keyAllowed) keyAllowed) := by
  cases keyAllowed <;> rfl

theorem Outline.passes_nodeCandidate? (hdeep : o.margin ≤ column) : Passes line (o.nodeCandidate? line column keyAllowed) := by
  intro c hc
  cases keyAllowed with
  | false => cases hc
  | true =>
    obtain rfl := Option.some.inj hc
    exact ⟨Nat.le_refl line, decide_eq_false (by omega)⟩

/-- A word at the end of a line is read with the spaces of the next line. -/
theorem leads_plain (word : PlainWord) (hdeep : o.margin ≤ column) (hends : (Line.start (line + 1) lines).column < o.margin) :
    Leads (o.layout ⟨' ' :: (word.chars ++ '\n' :: lines.flatMap Line.write), line, column⟩ none keyAllowed)
      ((o.push (Content.plain word).tokens).layout (Line.start (line + 1) lines)) := by
  obtain ⟨rest, count, hstart, hrest, hwrite⟩ := Line.exists_start (line + 1) lines
  rw [hstart] at hends
  rw [hwrite, hstart]
  have htoken : (o.layout ⟨word.chars ++ '\n' :: (List.replicate count ' ' ++ rest), line, column + 1⟩ none keyAllowed).readToken? =
      some ((o.push (Content.plain word).tokens).layout ⟨rest, line + 1, count⟩ (o.nodeCandidate? line (column + 1) keyAllowed)) := by
    rw [readToken?_of_canStart rfl (atBoundary_of_column (Nat.succ_pos column)) (word.canStart_append _), readPlain?,
      markCandidate?_layout]
    change (Plain.read? false o.margin ⟨_, line, column + 1⟩).bind _ = _
    rw [word.read?_lineEnd (Nat.succ_pos column) hends hrest]
    rfl
  have hpasses : Passes line (o.nodeCandidate? line (column + 1) keyAllowed) := o.passes_nodeCandidate? (by omega)
  refine (leads_of_readToken? (settle?_space (word.startsLine _) hdeep) htoken ?_ ?_).trans (leads_of_settle?_eq ?_ (Nat.le_refl _))
  · simp only [Outline.layout, List.length_cons, List.length_append, List.length_replicate]
    omega
  · simp [Outline.layout]
  · exact (settle?_layout hrest (hpasses.refresh? rest count)).trans (settle?_layout hrest rfl).symm

/-- A text between quotes ends at its second quote. -/
theorem leads_quoted (word : Unbroken) (hdeep : o.margin ≤ column) :
    Leads (o.layout ⟨' ' :: (Quoted.writeSingle indent word.chars ++ '\n' :: lines.flatMap Line.write), line, column⟩ none keyAllowed)
      ((o.push (Content.quoted word).tokens).layout (Line.start (line + 1) lines)) := by
  have hstarts : StartsLine (Quoted.writeSingle indent word.chars ++ '\n' :: lines.flatMap Line.write) := startsLine_cons (by decide) _
  have hrest : ('\n' :: lines.flatMap Line.write).head? ≠ some '\'' := nofun
  have htoken : (o.layout ⟨Quoted.writeSingle indent word.chars ++ '\n' :: lines.flatMap Line.write, line, column + 1⟩
      none keyAllowed).readToken? =
      some ((o.push (Content.quoted word).tokens).layout
        ⟨'\n' :: lines.flatMap Line.write, line, column + 1 + (Quoted.writeSingle indent word.chars).length⟩
        (o.nodeCandidate? line (column + 1) keyAllowed) false) := by
    rw [readToken?_quote (atBoundary_of_column (Nat.succ_pos column)) rfl, readQuoted?, markCandidate?_layout]
    change (Quoted.read? '\'' ⟨_, line, column + 1⟩).bind _ = _
    rw [word.read?_writeSingle hrest]
    rfl
  refine (leads_of_readToken? (settle?_space hstarts hdeep) htoken ?_ nofun).trans (leads_lineEnd (o.passes_nodeCandidate? (by omega)))
  simp only [Outline.layout, List.length_cons, List.length_append]
  omega

theorem leads_noItems (hdeep : o.margin ≤ column) :
    Leads (o.layout ⟨' ' :: '[' :: ']' :: '\n' :: lines.flatMap Line.write, line, column⟩ none keyAllowed)
      ((o.push Content.noItems.tokens).layout (Line.start (line + 1) lines)) := by
  have hopen : (o.layout ⟨'[' :: ']' :: '\n' :: lines.flatMap Line.write, line, column + 1⟩ none keyAllowed).readToken? =
      some ((o.push [.flowSequence]).flowLayout ⟨']' :: '\n' :: lines.flatMap Line.write, line, column + 2⟩
        (o.nodeCandidate? line (column + 1) keyAllowed)) := by
    rw [readToken?_bracket (atBoundary_of_column (Nat.succ_pos column)) rfl, openFlow?, markCandidate?_layout]
    rfl
  have hinside : ((o.push [.flowSequence]).flowLayout ⟨']' :: '\n' :: lines.flatMap Line.write, line, column + 2⟩
      (o.nodeCandidate? line (column + 1) keyAllowed)).settle? =
      some ((o.push [.flowSequence]).flowLayout ⟨']' :: '\n' :: lines.flatMap Line.write, line, column + 2⟩
        (o.nodeCandidate? line (column + 1) keyAllowed)) :=
    settle?_flow (startsLine_cons (by decide) _) (refresh?_nodeCandidate? (by omega))
  have hclose : ((o.push [.flowSequence]).flowLayout ⟨']' :: '\n' :: lines.flatMap Line.write, line, column + 2⟩
      (o.nodeCandidate? line (column + 1) keyAllowed)).readToken? =
      some ((o.push Content.noItems.tokens).layout ⟨'\n' :: lines.flatMap Line.write, line, column + 3⟩
        (o.nodeCandidate? line (column + 1) keyAllowed) false) := by
    rw [readToken?_closingBracket (atBoundary_of_column (Nat.succ_pos (column + 1))) rfl]
    rfl
  refine (leads_of_readToken? (settle?_space (startsLine_cons (by decide) _) hdeep) hopen ?_ nofun).trans <|
    (leads_of_readToken? hinside hclose ?_ nofun).trans <| leads_lineEnd (o.passes_nodeCandidate? (by omega))
  · simp [Outline.layout, Outline.flowLayout]
  · simp [Outline.layout, Outline.flowLayout]

theorem leads_content (content : Content) (hdeep : o.margin ≤ column)
    (hends : content.EndsBefore (Line.start (line + 1) lines).column o.margin) :
    Leads (o.layout ⟨content.write indent ++ '\n' :: lines.flatMap Line.write, line, column⟩ none keyAllowed)
      ((o.push content.tokens).layout (Line.start (line + 1) lines)) := by
  cases content with
  | nothing => exact leads_lineEnd nofun
  | plain word => exact leads_plain word hdeep hends
  | quoted word => exact leads_quoted word hdeep
  | noItems => exact leads_noItems hdeep

end Contents

theorem Content.atWordEnd_write (content : Content) (indent : Nat) (rest : List Char) :
    atWordEnd (content.write indent ++ '\n' :: rest) = true := by
  cases content <;> rfl

theorem Outline.push_push (o : Outline) (first more : List Token) : (o.push first).push more = o.push (more ++ first) := by
  simp [push]

theorem readToken?_key (key : Key) (hrest : atWordEnd rest = true) :
    (o.layout ⟨key.chars ++ ':' :: rest, line, column⟩).readToken? =
      some ((o.push [.scalar { text := key.text }]).layout ⟨':' :: rest, line, column + key.chars.length⟩
        (o.nodeCandidate? line column true) false) := by
  rw [readToken?_of_canStart rfl (atBoundary_of_colon key.isGap_eq_false) (key.canStart_append _), readPlain?, markCandidate?_layout]
  change (Plain.read? false o.margin ⟨_, line, column⟩).bind _ = _
  rw [key.read?_colon hrest]
  rfl

/-- A key that is not too long is still a candidate at its colon. -/
theorem settle?_colon (token : Token) {before : Nat} (hmargin : o.margin ≤ column + 1) (hbefore : before ≤ 1024) :
    ((o.push [token]).layout ⟨':' :: rest, line, column + before⟩ (o.nodeCandidate? line column true) false).settle? =
      some ((o.push [token]).layout ⟨':' :: rest, line, column + before⟩ (o.nodeCandidate? line column true) false) := by
  have hclose : (o.push [token]).close (column + before + 1) = o.push [token] :=
    (o.push [token]).close_eq_self (hmargin.trans (by omega))
  rw [settle?_layout (startsLine_cons (by decide) rest) (refresh?_nodeCandidate? (Nat.add_le_add_left hbefore column)), hclose]

theorem insertAt_length (token : Token) (tokens added : List Token) :
    insertAt (token :: tokens) tokens.length added = token :: (added ++ tokens) := by
  simp [insertAt]

/-- At its colon a key is confirmed, and with the first one a block is opened. -/
theorem readToken?_confirm (token : Token) {before : Nat} (hbefore : 0 < before) (hrest : atWordEnd rest = true) :
    ((o.push [token]).layout ⟨':' :: rest, line, column + before⟩ (o.nodeCandidate? line column true) false).readToken? =
      some (((o.openBlock .blockMapping column).push [.value, token, .key]).layout ⟨rest, line, column + before + 1⟩ none false) := by
  rw [readToken?_colon (atBoundary_of_column (Nat.add_pos_right column hbefore)) rfl hrest]
  simp only [readValue?, Outline.layout, Outline.nodeCandidate?, if_true, confirm, inFlow, Outline.push, List.singleton_append,
    insertAt_length, List.isEmpty_nil, Bool.not_true, Bool.not_false, Bool.true_and, Outline.openBlock, Layout.margin, Outline.margin,
    decide_eq_true_eq, push, Cursor.advance]
  by_cases hopen : o.margins.headD 0 ≤ column <;> simp only [hopen, if_true, if_false] <;> rfl

theorem readToken?_item (hrest : atWordEnd rest = true) :
    (o.layout ⟨'-' :: rest, line, column⟩).readToken? =
      some (((o.openBlock .blockSequence column).push [.blockEntry]).layout ⟨rest, line, column + 1⟩) := by
  rw [readToken?_hyphen (atBoundary_of_hyphen hrest) rfl hrest]
  simp only [ readBlockEntry?, Outline.layout, openBlock, Outline.openBlock, Layout.margin, Outline.margin, inFlow, List.isEmpty_nil,
    Bool.not_true, Bool.not_false, Bool.true_and, Bool.false_or, if_true]
  by_cases hopen : o.margins.headD 0 ≤ column <;> simp only [hopen, if_true, if_false] <;> rfl

theorem leads_entry (key : Key) (content : Content) (indent : Nat)
    (hends : content.EndsBefore (Line.start (line + 1) lines).column (column + 1)) :
    Leads (o.layout ⟨key.chars ++ ':' :: (content.write indent ++ '\n' :: lines.flatMap Line.write), line, column⟩)
      ((((o.close (column + 1)).openBlock .blockMapping column).push
        (content.tokens ++ [.value, .scalar { text := key.text }, .key])).layout (Line.start (line + 1) lines)) := by
  have hend := content.atWordEnd_write indent (lines.flatMap Line.write)
  have hmargin := o.margin_close_le (column + 1)
  have hopened := Outline.margin_openBlock hmargin .blockMapping
  have hlength : 0 < key.chars.length := List.length_pos_iff.mpr (List.isEmpty_eq_false_iff.mp key.isEmpty_eq_false)
  rw [← Outline.push_push]
  refine (leads_of_readToken? (settle?_layout (key.startsLine _) rfl) (readToken?_key key hend) ?_ ?_).trans <|
    (leads_of_readToken? (settle?_colon _ hmargin key.length_le) (readToken?_confirm _ hlength hend) ?_ nofun).trans <|
      leads_content content (hopened.trans_le (by omega)) (by rwa [Outline.margin_push, hopened])
  · simp only [Outline.layout, List.length_cons, List.length_append]
    omega
  · simp [Outline.layout]
  · simp [Outline.layout]

theorem leads_item (content : Content) (indent : Nat) (hends : content.EndsBefore (Line.start (line + 1) lines).column (column + 1)) :
    Leads (o.layout ⟨'-' :: (content.write indent ++ '\n' :: lines.flatMap Line.write), line, column⟩)
      ((((o.close (column + 1)).openBlock .blockSequence column).push (content.tokens ++ [.blockEntry])).layout
        (Line.start (line + 1) lines)) := by
  have hmargin := o.margin_close_le (column + 1)
  have hopened := Outline.margin_openBlock hmargin .blockSequence
  rw [← Outline.push_push]
  refine (leads_of_readToken? (settle?_layout (startsLine_cons (by decide) _) rfl) (readToken?_item (content.atWordEnd_write indent _))
    ?_ nofun).trans <| leads_content content hopened.le (by rwa [Outline.margin_push, hopened])
  simp [Outline.layout]

theorem leads_addLine (hends : l.content.EndsBefore (Line.start (line + 1) lines).column (l.column + 1)) :
    Leads (o.layout (Line.start line (l :: lines))) ((o.addLine l).layout (Line.start (line + 1) lines)) := by
  obtain ⟨column, key?, content⟩ := l
  cases key? with
  | none => exact leads_item content (column + 2) hends
  | some key =>
    have hbody : Line.start line (⟨column, some key, content⟩ :: lines) =
        ⟨key.chars ++ ':' :: (content.write (column + 2) ++ '\n' :: lines.flatMap Line.write), line, column⟩ := by
      simp [Line.start, Line.body, Line.mark]
    rw [hbody]
    exact leads_entry key content (column + 2) hends

end AssetGraph.Yaml

import AssetGraph.Proofs.Text.Cut
import AssetGraph.Yaml.Layout

/-!
# Scalars of one word

A text without blanks and line breaks is read back from where it is written: without quotes up to the end of its line or up to the
colon that makes it a key, and between single quotes up to the second of them.
-/
namespace AssetGraph.Yaml

/-- Whether a character can be written as it is, and is no blank or line break. -/
def IsWordChar (c : Char) : Prop := isPrintable c = true ∧ isGap c = false

instance (c : Char) : Decidable (IsWordChar c) := inferInstanceAs (Decidable (_ ∧ _))

structure Unbroken where
  chars : List Char
  isWordChar : ∀ c ∈ chars, IsWordChar c

def Unbroken.text (word : Unbroken) : String := String.ofList word.chars

/-- A text that reads the same without quotes. -/
structure PlainWord extends Unbroken where
  canStart : Plain.canStart chars = true
  goesOn : Plain.goesOn chars = true

def StartsLine (cs : List Char) : Prop := ∀ c ∈ cs.head?, isGap c = false ∧ c ≠ '#' ∧ c ≠ Layout.byteOrderMark

variable {cs rest next : List Char} {c : Char} {line column margin indent : Nat}

theorem startsLine_cons (h : isGap c = false ∧ c ≠ '#' ∧ c ≠ Layout.byteOrderMark) (rest : List Char) : StartsLine (c :: rest) := by
  intro d hd
  obtain rfl := Option.some.inj hd
  exact h

theorem isBlank_of_isGap_eq_false (h : isGap c = false) : isBlank c = false := (Bool.or_eq_false_iff.mp h).1

theorem isBreak_of_isGap_eq_false (h : isGap c = false) : isBreak c = false := (Bool.or_eq_false_iff.mp h).2

/-- After the end of a line the spaces of the next one are skipped, and the line break is what the gap consists of. -/
theorem gapFrom?_replicate (count : Nat) (hnext : StartsLine next) :
    gapFrom? margin line column false (List.replicate count ' ' ++ next) = some ({}, ⟨next, line, column + count⟩) := by
  induction count generalizing column with
  | zero =>
    cases next with
    | nil => rfl
    | cons c next =>
      have hgap := (hnext c rfl).1
      simp [gapFrom?, isBlank_of_isGap_eq_false hgap, isBreak_of_isGap_eq_false hgap]
  | succ count ih =>
    have hblank : isBlank ' ' = true := rfl
    simp [List.replicate_succ, gapFrom?, hblank, ih, Nat.add_assoc, Nat.add_comm 1]

theorem gap?_lineEnd (hnext : StartsLine next) :
    Cursor.gap? ⟨'\n' :: (List.replicate indent ' ' ++ next), line, column⟩ margin =
      some ({ breaks := ['\n'] }, ⟨next, line + 1, indent⟩) := by
  have hblank : isBlank '\n' = false := rfl
  have hbreak : isBreak '\n' = true := rfl
  simp [Cursor.gap?, gapFrom?, hblank, hbreak, gapFrom?_replicate indent hnext]

theorem atMark_of_column (hcolumn : 0 < column) (mark : List Char) : Cursor.atMark ⟨cs, line, column⟩ mark = false := by
  simp [Cursor.atMark, hcolumn.ne']

theorem atBoundary_of_column (hcolumn : 0 < column) : Cursor.atBoundary ⟨cs, line, column⟩ = false := by
  simp [Cursor.atBoundary, Cursor.atDocumentStart, Cursor.atDocumentEnd, atMark_of_column hcolumn]

/-- A mark that has no colon in it does not start where a colon follows a word. -/
theorem atMark_of_colon (hcs : ∀ c ∈ cs, isGap c = false) {mark : List Char} (hmark : ':' ∉ mark) :
    Cursor.atMark ⟨cs ++ ':' :: rest, line, column⟩ mark = false := by
  rw [Cursor.atMark, Bool.and_eq_false_iff]
  refine .inr ?_
  cases hdrop : Text.dropStart? mark (cs ++ ':' :: rest) with
  | none => rfl
  | some after =>
    rcases List.append_eq_append_iff.mp (Text.dropStart?_eq_some_iff.mp hdrop) with ⟨more, rfl, hmore⟩ | ⟨more, rfl, rfl⟩
    · cases more with
      | nil =>
        obtain rfl : ':' :: rest = after := hmore
        rfl
      | cons first more =>
        obtain rfl : ':' = first := (List.cons.inj hmore).1
        exact absurd (List.mem_append_right cs List.mem_cons_self) hmark
    · cases more with
      | nil => rfl
      | cons first more => exact hcs first (List.mem_append_right mark List.mem_cons_self)

theorem atBoundary_of_colon (hcs : ∀ c ∈ cs, isGap c = false) : Cursor.atBoundary ⟨cs ++ ':' :: rest, line, column⟩ = false := by
  rw [Cursor.atBoundary, Cursor.atDocumentStart, Cursor.atDocumentEnd, atMark_of_colon hcs (by decide), atMark_of_colon hcs (by decide)]
  rfl

theorem atBoundary_of_hyphen (hrest : atWordEnd rest = true) : Cursor.atBoundary ⟨'-' :: rest, line, column⟩ = false := by
  have hsecond : Text.dropStart? ['-', '-'] rest = none := by
    cases rest with
    | nil => rfl
    | cons c rest =>
      have hc : '-' ≠ c := by
        rintro rfl
        cases hrest
      simp [Text.dropStart?, hc]
  simp [Cursor.atBoundary, Cursor.atDocumentStart, Cursor.atDocumentEnd, Cursor.atMark, hsecond, Text.dropStart?]

namespace Plain

theorem takeWord?_append (hcs : ∀ c ∈ cs, isGap c = false) (hgoesOn : goesOn cs = true)
    (hrest : takeWord? false rest = some ([], rest)) : takeWord? false (cs ++ rest) = some (cs, rest) := by
  induction cs with
  | nil => exact hrest
  | cons c cs ih =>
    obtain ⟨hgap, hothers⟩ := List.forall_mem_cons.mp hcs
    simp only [goesOn, Bool.and_eq_true, Bool.not_eq_true'] at hgoesOn
    obtain ⟨⟨hcolon, -⟩, hgoesOn⟩ := hgoesOn
    have hstop : (c == ':' && atWordEnd (cs ++ rest)) = false := by
      cases cs with
      | nil =>
        have hc : (c == ':') = false := by simpa [atWordEnd] using hcolon
        rw [hc, Bool.false_and]
      | cons d ds => exact hcolon
    simp [takeWord?, hgap, hstop, ih hothers hgoesOn]

theorem takeWord?_of_atWordEnd (h : atWordEnd rest = true) : takeWord? false rest = some ([], rest) := by
  cases rest with
  | nil => rfl
  | cons c rest =>
    have hgap : isGap c = true := h
    simp [takeWord?, hgap]

theorem takeWord?_of_colon (h : atWordEnd rest = true) : takeWord? false (':' :: rest) = some ([], ':' :: rest) := by
  have hgap : isGap ':' = false := rfl
  simp [takeWord?, hgap, h]

end Plain

theorem Unbroken.printable (word : Unbroken) : ∀ c ∈ word.chars, isPrintable c = true := fun c hc => (word.isWordChar c hc).1

theorem Unbroken.isGap_eq_false (word : Unbroken) : ∀ c ∈ word.chars, isGap c = false := fun c hc => (word.isWordChar c hc).2

namespace PlainWord

variable (word : PlainWord)

theorem exists_head : ∃ c cs, word.chars = c :: cs ∧ isGap c = false ∧ isIndicator c = false ∧
    (['-', '?', ':'].contains c && atWordEnd cs) = false := by
  have hstart := word.canStart
  cases hchars : word.chars with
  | nil =>
    rw [hchars] at hstart
    cases hstart
  | cons c cs =>
    rw [hchars] at hstart
    simp only [Plain.canStart, Bool.and_eq_true, Bool.not_eq_true', Bool.or_eq_false_iff] at hstart
    exact ⟨c, cs, rfl, hstart.1.1, hstart.1.2, hstart.2⟩

theorem canStart_append (rest : List Char) : Plain.canStart (word.chars ++ rest) = true := by
  obtain ⟨c, cs, hchars, hgap, hindicator, hmark⟩ := word.exists_head
  have hend : (['-', '?', ':'].contains c && atWordEnd (cs ++ rest)) = false := by
    cases cs with
    | nil => rw [(by simpa [atWordEnd] using hmark : ['-', '?', ':'].contains c = false), Bool.false_and]
    | cons d ds => exact hmark
  simp only [hchars, List.cons_append, Plain.canStart, hgap, hindicator, hend, Bool.or_self, Bool.not_false, Bool.and_self]

theorem head?_ne_hash (rest : List Char) : (word.chars ++ rest).head? ≠ some '#' := by
  obtain ⟨c, cs, hchars, -, hindicator, -⟩ := word.exists_head
  rw [hchars]
  rintro heq
  obtain rfl := Option.some.inj heq
  cases hindicator

theorem startsLine (rest : List Char) : StartsLine (word.chars ++ rest) := by
  obtain ⟨c, cs, hchars, hgap, -, -⟩ := word.exists_head
  intro d hd
  have hhash := word.head?_ne_hash rest
  rw [hchars] at hd hhash
  obtain rfl := Option.some.inj hd
  refine ⟨hgap, fun heq => hhash (congrArg some heq), fun heq => ?_⟩
  have hprintable := (word.isWordChar c (hchars ▸ List.mem_cons_self)).1
  rw [heq] at hprintable
  cases hprintable

theorem isEmpty_eq_false : word.chars.isEmpty = false := by
  obtain ⟨c, cs, hchars, -⟩ := word.exists_head
  rw [hchars]
  rfl

/-- The last word of a line is read with the spaces of the next line, if that one does not lie deep enough to go on with it. -/
theorem read?_lineEnd (hcolumn : 0 < column) (hindent : indent < margin) (hnext : StartsLine next) :
    Plain.read? false margin ⟨word.chars ++ '\n' :: (List.replicate indent ' ' ++ next), line, column⟩ =
      some ⟨word.chars, ⟨next, line + 1, indent⟩, true⟩ := by
  have hend : atWordEnd ('\n' :: (List.replicate indent ' ' ++ next)) = true := rfl
  have hword := Plain.takeWord?_append word.isGap_eq_false word.goesOn (Plain.takeWord?_of_atWordEnd hend)
  have hhash := beq_eq_false_iff_ne.mpr (word.head?_ne_hash ('\n' :: (List.replicate indent ' ' ++ next)))
  have hfold : Gap.fold {} = [] := rfl
  unfold Plain.read? Plain.takeWords?
  simp only [atBoundary_of_column hcolumn, hhash, hword, word.isEmpty_eq_false, hend, gap?_lineEnd hnext, Bool.or_false,
    Bool.false_eq_true, if_false, if_true, bind, Option.bind_some, Bool.not_false, Bool.true_and, hindent, decide_true, hfold,
    List.nil_append, List.isEmpty_cons]

theorem read?_colon (hrest : atWordEnd rest = true) :
    Plain.read? false margin ⟨word.chars ++ ':' :: rest, line, column⟩ =
      some ⟨word.chars, ⟨':' :: rest, line, column + word.chars.length⟩, false⟩ := by
  have hend : atWordEnd (':' :: rest) = false := rfl
  have hword := Plain.takeWord?_append word.isGap_eq_false word.goesOn (Plain.takeWord?_of_colon hrest)
  have hhash := beq_eq_false_iff_ne.mpr (word.head?_ne_hash (':' :: rest))
  have hboundary : Cursor.atBoundary ⟨word.chars ++ ':' :: rest, line, column⟩ = false := atBoundary_of_colon word.isGap_eq_false
  have hfold : Gap.fold {} = [] := rfl
  unfold Plain.read? Plain.takeWords?
  simp only [hboundary, hhash, hword, word.isEmpty_eq_false, hend, Bool.or_false, Bool.false_eq_true, if_false, bind, Option.bind_some,
    hfold, List.nil_append]

end PlainWord

namespace Quoted

/-- Up to the closing quote, quotes that are written twice count once. -/
theorem takeText?_lines (hcs : ∀ c ∈ cs, isGap c = false) (hrest : rest.head? ≠ some '\'') (hcolumn : 0 < column) {fuel : Nat}
    (hfuel : cs.length < fuel) :
    takeText? '\'' fuel ⟨writeSingle.lines indent false cs ++ '\'' :: rest, line, column⟩ =
      some (cs, ⟨rest, line, column + (writeSingle.lines indent false cs).length + 1⟩) := by
  induction cs generalizing column fuel with
  | nil =>
    obtain ⟨fuel, rfl⟩ := Nat.exists_eq_add_one.mpr hfuel
    have hgap : isGap '\'' = false := rfl
    have hquote : (rest.head? == some '\'') = false := beq_eq_false_iff_ne.mpr hrest
    simp [takeText?, writeSingle.lines, atBoundary_of_column hcolumn, hgap, hquote, Cursor.advance]
  | cons c cs ih =>
    obtain ⟨fuel, rfl⟩ := Nat.exists_eq_add_one.mpr (Nat.zero_lt_of_lt hfuel)
    obtain ⟨hgap, hothers⟩ := List.forall_mem_cons.mp hcs
    have hmore := Nat.lt_of_succ_lt_succ hfuel
    by_cases hquote : c = '\''
    · subst hquote
      have hread := ih hothers (Nat.succ_pos _ : 0 < column + 2) hmore
      simp [takeText?, writeSingle.lines, isBreak_of_isGap_eq_false hgap, atBoundary_of_column hcolumn, hgap, Cursor.advance, hread]
      omega
    · have hread := ih hothers (Nat.succ_pos _ : 0 < column + 1) hmore
      simp [takeText?, writeSingle.lines, isBreak_of_isGap_eq_false hgap, atBoundary_of_column hcolumn, hgap, Cursor.advance, hread, hquote]
      omega

theorem length_le_lines (indent : Nat) (afterBreak : Bool) (cs : List Char) :
    cs.length ≤ (writeSingle.lines indent afterBreak cs).length := by
  induction cs generalizing afterBreak with
  | nil => exact Nat.zero_le _
  | cons c cs ih =>
    rw [writeSingle.lines]
    split
    · exact Nat.succ_le_succ (ih true)
    · have hmore := ih false
      have hchar : 1 ≤ (if c == '\'' then ['\'', '\''] else [c]).length := by split <;> simp
      simp only [List.length_append, List.length_cons]
      omega

end Quoted

theorem Unbroken.read?_writeSingle (word : Unbroken) (hrest : rest.head? ≠ some '\'') :
    Quoted.read? '\'' ⟨Quoted.writeSingle indent word.chars ++ rest, line, column⟩ =
      some (word.chars, ⟨rest, line, column + (Quoted.writeSingle indent word.chars).length⟩) := by
  have hfuel : word.chars.length < (Quoted.writeSingle indent word.chars ++ rest).length + 1 := by
    have hlength := Quoted.length_le_lines indent false word.chars
    simp only [Quoted.writeSingle, List.length_append, List.length_cons, List.length_nil]
    omega
  have hplace : Cursor.advance ⟨Quoted.writeSingle indent word.chars ++ rest, line, column⟩ 1 =
      ⟨Quoted.writeSingle.lines indent false word.chars ++ '\'' :: rest, line, column + 1⟩ := by
    simp [Cursor.advance, Quoted.writeSingle]
  rw [Quoted.read?, hplace, Quoted.takeText?_lines word.isGap_eq_false hrest (Nat.succ_pos column) hfuel]
  simp only [Quoted.writeSingle, List.length_append, List.length_cons, List.length_nil]
  congr 3
  omega

end AssetGraph.Yaml

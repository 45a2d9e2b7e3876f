import AssetGraph.Proofs.Yaml.Lines

/-!
# Tokens of a document of lines

The tokens of a document are what its lines add one after the other, with all blocks closed at its end.
-/
namespace AssetGraph.Yaml

open Layout

variable {cs : List Char} {line : Nat} {o : Outline} {lines : List Line}

def Line.firstColumn : List Line → Nat
  | [] => 0
  | l :: _ => l.column

/-- Whether no line goes on with the content of the one before it. -/
def Line.Separate : List Line → Prop
  | [] => True
  | l :: lines => l.content.EndsBefore (firstColumn lines) (l.column + 1) ∧ Separate lines

theorem Line.column_start (line : Nat) (lines : List Line) : (Line.start line lines).column = firstColumn lines := by
  cases lines <;> rfl

theorem leads_lines (hlines : Line.Separate lines) :
    Leads (o.layout (Line.start line lines)) ((lines.foldl Outline.addLine o).layout ⟨[], line + lines.length, 0⟩) := by
  induction lines generalizing o line with
  | nil => exact leads_of_settle?_eq rfl (Nat.le_refl _)
  | cons l lines ih =>
    obtain ⟨hends, hothers⟩ := hlines
    have hlength : line + (l :: lines).length = line + 1 + lines.length := by
      rw [List.length_cons]
      omega
    rw [List.foldl_cons, hlength]
    exact (leads_addLine (Line.column_start (line + 1) lines ▸ hends)).trans (ih hothers)

/-- Closing the deeper blocks first makes no difference. -/
theorem Outline.close_close {deep column : Nat} (h : column ≤ deep) (o : Outline) : (o.close deep).close column = o.close column := by
  obtain ⟨margins, tokens⟩ := o
  have hclosed : (margins.dropWhile (deep < ·)).dropWhile (column < ·) = margins.dropWhile (column < ·) ∧
      ((margins.dropWhile (deep < ·)).takeWhile (column < ·)).length + (margins.takeWhile (deep < ·)).length =
        (margins.takeWhile (column < ·)).length := by
    induction margins with
    | nil => exact ⟨rfl, rfl⟩
    | cons first margins ih =>
      by_cases hdeep : deep < first
      · have hcolumn : column < first := by omega
        simp only [List.dropWhile_cons, List.takeWhile_cons, hdeep, hcolumn, decide_true, if_true, List.length_cons]
        exact ⟨ih.1, congrArg Nat.succ ih.2⟩
      · simp [hdeep]
  simp [close, List.map_const', ← List.append_assoc, hclosed]

theorem readAll?_end {fuel : Nat} (hfuel : 0 < fuel) : readAll? fuel (o.layout ⟨[], line, 0⟩) = some (o.close 0).tokens.reverse := by
  obtain ⟨fuel, rfl⟩ := Nat.exists_eq_add_one.mpr hfuel
  have hsettle : (o.layout ⟨[], line, 0⟩).settle? = some ((o.close 1).layout ⟨[], line, 0⟩) := rfl
  rw [readAll?_succ, hsettle, ← Outline.close_close (Nat.zero_le 1)]
  rfl

theorem unifyBreaks_eq_self (h : ∀ c ∈ cs, isPrintable c = true) : unifyBreaks cs = cs := by
  fun_induction unifyBreaks cs with
  | case1 rest ih => cases h '\r' List.mem_cons_self
  | case2 c rest hother ih =>
    obtain ⟨hc, hrest⟩ := List.forall_mem_cons.mp h
    have hkept : (c == '\r' || c == '\u0085') = false := by
      rw [Bool.or_eq_false_iff, beq_eq_false_iff_ne, beq_eq_false_iff_ne]
      constructor <;> (rintro rfl; cases hc)
    rw [ih hrest, hkept]
    rfl
  | case3 => rfl

theorem isAllowed_of_isPrintable {c : Char} (h : isPrintable c = true) : isAllowed c = true := by
  simp [isPrintable, isAllowed] at h ⊢
  omega

theorem Quoted.isPrintable_of_mem_lines {indent : Nat} {c : Char} (h : ∀ c ∈ cs, isPrintable c = true) (afterBreak : Bool)
    (hc : c ∈ writeSingle.lines indent afterBreak cs) : isPrintable c = true := by
  induction cs generalizing afterBreak with
  | nil =>
    cases afterBreak with
    | false => cases hc
    | true =>
      obtain ⟨-, rfl⟩ := List.mem_replicate.mp hc
      rfl
  | cons d cs ih =>
    obtain ⟨hd, hothers⟩ := List.forall_mem_cons.mp h
    rw [writeSingle.lines] at hc
    split at hc
    · rcases List.mem_cons.mp hc with rfl | hc
      · exact hd
      · exact ih hothers true hc
    · simp only [List.mem_append] at hc
      rcases hc with (hspace | hchar) | hc
      · obtain rfl : c = ' ' := by
          split at hspace
          · exact (List.mem_replicate.mp hspace).2
          · cases hspace
        rfl
      · obtain rfl : c = d := by
          split at hchar
          · simp_all
          · exact List.mem_singleton.mp hchar
        exact hd
      · exact ih hothers false hc

theorem Content.isPrintable_of_mem_write {indent : Nat} {c : Char} (content : Content) (hc : c ∈ content.write indent) :
    isPrintable c = true := by
  cases content with
  | nothing => cases hc
  | plain word =>
    rcases List.mem_cons.mp hc with rfl | hc
    · rfl
    · exact word.printable c hc
  | quoted word =>
    simp only [write, Quoted.writeSingle, List.mem_cons, List.mem_append, List.cons_append, List.not_mem_nil, or_false] at hc
    rcases hc with rfl | rfl | hc | rfl
    · rfl
    · rfl
    · exact Quoted.isPrintable_of_mem_lines word.printable false hc
    · rfl
  | noItems =>
    have hall : [' ', '[', ']'].all isPrintable = true := by decide
    exact List.all_eq_true.mp hall c hc

theorem Line.isPrintable_of_mem_write {c : Char} (l : Line) (hc : c ∈ l.write) : isPrintable c = true := by
  obtain ⟨column, key?, content⟩ := l
  simp only [write, body, List.mem_append, List.mem_singleton] at hc
  rcases hc with (hspace | hmark | hcontent) | rfl
  · rw [(List.mem_replicate.mp hspace).2]
    rfl
  · cases key? with
    | none =>
      rw [List.mem_singleton.mp hmark]
      rfl
    | some key =>
      rcases List.mem_append.mp hmark with hkey | hcolon
      · exact key.printable c hkey
      · rw [List.mem_singleton.mp hcolon]
        rfl
  · exact content.isPrintable_of_mem_write hcontent
  · rfl

theorem tokens?_flatMap_write (hfirst : Line.firstColumn lines = 0) (hlines : Line.Separate lines) :
    tokens? (lines.flatMap Line.write) = some ((lines.foldl Outline.addLine {}).close 0).tokens.reverse := by
  have hprintable : ∀ c ∈ lines.flatMap Line.write, isPrintable c = true := by
    intro c hc
    obtain ⟨l, -, hl⟩ := List.mem_flatMap.mp hc
    exact l.isPrintable_of_mem_write hl
  have hallowed : (lines.flatMap Line.write).all isAllowed = true :=
    List.all_eq_true.mpr fun c hc => isAllowed_of_isPrintable (hprintable c hc)
  obtain ⟨rest, count, hstart, -, hwrite⟩ := Line.exists_start 0 lines
  have hcount : count = 0 := by rw [← hfirst, ← Line.column_start 0, hstart]
  have hrest : lines.flatMap Line.write = rest := by rw [hwrite, hcount, List.replicate_zero, List.nil_append]
  have hleads : Leads (Outline.layout {} (Line.start 0 lines)) ((lines.foldl Outline.addLine {}).layout ⟨[], 0 + lines.length, 0⟩) :=
    leads_lines hlines
  rw [hstart, hcount] at hleads
  obtain ⟨fuel, hfuel, hread⟩ := hleads (rest.length + 1) (Nat.lt_succ_self _)
  rw [tokens?, unifyBreaks_eq_self hprintable, if_pos hallowed, hrest]
  exact hread.trans (readAll?_end (Nat.zero_lt_of_lt hfuel))

end AssetGraph.Yaml

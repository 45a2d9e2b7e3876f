import AssetGraph.Proofs.Text.Numeral
import AssetGraph.Proofs.Yaml.Lines
import AssetGraph.Yaml.Scalar
import Mathlib.Tactic.Common

/-!
# Scalars without and with quotes

Texts of small letters, digits and underscores stand for themselves, and so do numbers, which are read as what was written. Any text
without blanks and line breaks is written with or without quotes, and either way as the content of a line.
-/
namespace AssetGraph.Yaml

variable {c : Char} {cs : List Char}

theorem isWordChar_of_visible (hleast : 0x21 ≤ c.toNat) (hgreatest : c.toNat ≤ 0x7E) : IsWordChar c := by
  have hne (d : Char) (hd : ¬(0x21 ≤ d.toNat ∧ d.toNat ≤ 0x7E)) : c ≠ d := by
    rintro rfl
    exact hd ⟨hleast, hgreatest⟩
  constructor
  · simp [isPrintable]
    omega
  · simp only [isGap, isBlank, isBreak, Bool.or_eq_false_iff, beq_eq_false_iff_ne]
    exact ⟨⟨hne _ (by decide), hne _ (by decide)⟩, ⟨hne _ (by decide), hne _ (by decide)⟩, hne _ (by decide)⟩

def IsLetter (c : Char) : Prop := (0x61 ≤ c.toNat ∧ c.toNat ≤ 0x7A) ∨ (0x30 ≤ c.toNat ∧ c.toNat ≤ 0x39) ∨ c.toNat = 0x5F

instance (c : Char) : Decidable (IsLetter c) := inferInstanceAs (Decidable (_ ∨ _))

theorem IsLetter.isWordChar (h : IsLetter c) : IsWordChar c := by
  unfold IsLetter at h
  exact isWordChar_of_visible (by omega) (by omega)

theorem IsLetter.contains_eq_false (h : IsLetter c) {marks : List Char} (hmarks : marks.all (¬IsLetter ·) = true) :
    marks.contains c = false := by
  rw [← Bool.not_eq_true, List.contains_iff_mem]
  exact fun hmem => of_decide_eq_true (List.all_eq_true.mp hmarks c hmem) h

theorem Plain.canStart_of_isLetter (h : IsLetter c) (cs : List Char) : canStart (c :: cs) = true := by
  have hflow : [',', '[', ']', '\x7b', '\x7d'].contains c = false := h.contains_eq_false (by decide)
  have hindicator : ['#', '&', '*', '!', '|', '>', '\'', '"', '%', '@', '\x60'].contains c = false := h.contains_eq_false (by decide)
  have hmark : ['-', '?', ':'].contains c = false := h.contains_eq_false (by decide)
  simp only [canStart, isIndicator, isFlowMark, h.isWordChar.2, hflow, hindicator, hmark, Bool.or_self, Bool.false_and, Bool.not_false,
    Bool.and_self]

theorem Plain.goesOn_of_isLetter (h : ∀ c ∈ cs, IsLetter c) : goesOn cs = true := by
  induction cs with
  | nil => rfl
  | cons c cs ih =>
    obtain ⟨hc, hothers⟩ := List.forall_mem_cons.mp h
    have hcolon : (c == ':') = false := by
      rw [beq_eq_false_iff_ne]
      rintro rfl
      revert hc
      decide
    simp [goesOn, hcolon, hc.isWordChar.2, ih hothers]

def PlainWord.ofLetters (cs : List Char) (hne : cs ≠ []) (hletters : cs.all (IsLetter ·) = true) : PlainWord where
  chars := cs
  isWordChar c hc := IsLetter.isWordChar (of_decide_eq_true (List.all_eq_true.mp hletters c hc))
  canStart := by
    obtain ⟨c, cs, rfl⟩ := List.exists_cons_of_ne_nil hne
    exact Plain.canStart_of_isLetter (of_decide_eq_true (List.all_eq_true.mp hletters c List.mem_cons_self)) cs
  goesOn := Plain.goesOn_of_isLetter fun c hc => of_decide_eq_true (List.all_eq_true.mp hletters c hc)

def Key.ofLetters (name : String) (h : name.toList ≠ [] ∧ name.toList.all (IsLetter ·) = true ∧ name.toList.length ≤ 1024) : Key :=
  { PlainWord.ofLetters name.toList h.1 h.2.1 with length_le := h.2.2 }

theorem Key.text_ofLetters (name : String)
    (h : name.toList ≠ [] ∧ name.toList.all (IsLetter ·) = true ∧ name.toList.length ≤ 1024) : (Key.ofLetters name h).text = name :=
  String.ofList_toList

section Numbers

variable {n bound : Nat}

theorem isLetter_of_mem_render (hc : c ∈ Numeral.render 10 n) : IsLetter c := by
  have hdigits : ∀ d < 10, IsLetter (Numeral.digit d) := by decide
  obtain ⟨d, hd, rfl⟩ := Numeral.mem_render (by decide) hc
  exact hdigits d hd

def PlainWord.ofNat (n : Nat) : PlainWord :=
  .ofLetters (Numeral.render 10 n) (Numeral.render_ne_nil 10 n) <|
    List.all_eq_true.mpr fun _ hc => decide_eq_true (isLetter_of_mem_render hc)

namespace Word

theorem notMem_render {d : Char} (hd : ¬IsLetter d ∨ d ∈ ['x', 'o', 'b']) : d ∉ Numeral.render 10 n := by
  have hdigits : ∀ value < 10, Numeral.digit value ∉ ['x', 'o', 'b'] := by decide
  intro hmem
  rcases hd with hd | hd
  · exact hd (isLetter_of_mem_render hmem)
  · obtain ⟨value, hvalue, rfl⟩ := Numeral.mem_render (by decide) hmem
    exact hdigits value hvalue hd

theorem isPadded_render (n : Nat) : isPadded (Numeral.render 10 n) = false := by
  have hsign : afterSign (Numeral.render 10 n) = Numeral.render 10 n := by
    unfold afterSign
    split
    · rename_i rest hplus
      exact absurd (hplus ▸ List.mem_cons_self) (notMem_render (n := n) (d := '+') (.inl (by decide)))
    · rename_i rest hminus
      exact absurd (hminus ▸ List.mem_cons_self) (notMem_render (n := n) (d := '-') (.inl (by decide)))
    · rfl
  rw [isPadded, hsign]
  split
  · rename_i d rest hpadded
    by_cases hn : n = 0
    · rw [hn, Numeral.render_of_lt (by decide)] at hpadded
      cases hpadded
    · exact absurd (by rw [hpadded]; rfl) (Numeral.head?_render_ne_zero (by decide : 2 ≤ 10) (by decide) hn)
  · rfl

/-- The digits of a number are not taken for the start of one in another base, and there are no zeros ahead. -/
theorem magnitude?_render (n : Nat) : magnitude? (Numeral.render 10 n) = some n := by
  have hbase {d : Char} {rest : List Char} (hd : d ∈ ['x', 'o', 'b']) : Numeral.render 10 n ≠ '0' :: d :: rest :=
    fun hrender => notMem_render (n := n) (.inr hd) (by simp [hrender])
  unfold magnitude?
  split
  · rename_i hrender
    exact absurd hrender (hbase (by simp))
  · rename_i hrender
    exact absurd hrender (hbase (by simp))
  · rename_i hrender
    exact absurd hrender (hbase (by simp))
  · rw [isPadded_render, if_neg nofun]
    exact Numeral.read?_render (by decide) (by decide) n

theorem natural?_text (h : n < bound) : natural? bound (Numeral.text n) = some n := by
  unfold natural?
  dsimp only
  rw [Numeral.text, String.toList_ofList]
  split
  · rename_i rest hplus
    exact absurd (hplus ▸ List.mem_cons_self) (notMem_render (n := n) (d := '+') (.inl (by decide)))
  · rw [magnitude?_render]
    exact Option.filter_some_pos (decide_eq_true h)

end Word

end Numbers

theorem hasPair_eq_false {first : Char → Bool} (second : Char → Bool) (h : ∀ c ∈ cs, first c = false) :
    hasPair first second cs = false := by
  induction cs with
  | nil => rfl
  | cons c cs ih =>
    obtain ⟨hc, hothers⟩ := List.forall_mem_cons.mp h
    cases cs with
    | nil => rfl
    | cons d cs => rw [hasPair, hc, ih hothers, Bool.false_and, Bool.or_self]

theorem Unbroken.fitsSingleQuotes (word : Unbroken) : fitsSingleQuotes word.chars = true := by
  have hprintable : word.chars.all isPrintable = true := List.all_eq_true.mpr word.printable
  have hspace : ∀ c ∈ word.chars, isSpace c = false := by
    intro c hc
    exact (Bool.or_eq_false_iff.mp (isBlank_of_isGap_eq_false (word.isGap_eq_false c hc))).1
  have hbreak : ∀ c ∈ word.chars, isBreak c = false := fun c hc => isBreak_of_isGap_eq_false (word.isGap_eq_false c hc)
  rw [Yaml.fitsSingleQuotes, hprintable, hasPair_eq_false isBreak hspace, hasPair_eq_false isSpace hbreak]
  rfl

theorem Unbroken.toList_text (word : Unbroken) : word.text.toList = word.chars := String.toList_ofList

/-- A text without blanks and line breaks is written without quotes only if it reads the same so, and otherwise between single quotes. -/
theorem Style.of_unbroken (word : Unbroken) :
    (Style.of word.text = .plain ∧ Plain.canStart word.chars = true ∧ Plain.goesOn word.chars = true) ∨
      Style.of word.text = .singleQuoted := by
  have hbreak : word.chars.contains '\n' = false := by
    rw [← Bool.not_eq_true, List.contains_iff_mem]
    exact fun hmem => nomatch word.isGap_eq_false _ hmem
  simp only [Style.of, word.toList_text, hbreak, word.fitsSingleQuotes, if_true, Bool.false_eq_true, if_false]
  split
  · exact .inr rfl
  · split
    · rename_i hfits
      simp only [fitsPlain, Bool.and_eq_true] at hfits
      exact .inl ⟨rfl, hfits.1.1.1.1.1, hfits.1.1.1.1.2⟩
    · exact .inr rfl

namespace Unbroken

variable (word : Unbroken)

def content : Content :=
  if h : Style.of word.text = .plain then
    have hplain := (Style.of_unbroken word).resolve_right fun hquoted => nomatch h.symm.trans hquoted
    .plain { word with canStart := hplain.2.1, goesOn := hplain.2.2 }
  else .quoted word

theorem write_content (indent : Nat) : word.content.write indent ++ ['\n'] = ' ' :: writeText indent word.text := by
  unfold content
  split
  · rename_i hplain
    simp [writeText, hplain, toList_text, Content.write]
  · rename_i hother
    have hquoted := (Style.of_unbroken word).resolve_left fun hplain => hother hplain.1
    simp [writeText, hquoted, toList_text, Content.write]

def scalar : Scalar := { text := word.text, style := if Style.of word.text = .plain then .plain else .singleQuoted }

theorem tokens_content : word.content.tokens = [.scalar word.scalar] := by
  unfold content
  split
  · rename_i hplain
    simp [Content.tokens, scalar, hplain]
  · rename_i hother
    simp [Content.tokens, scalar, hother]

end Unbroken

end AssetGraph.Yaml

import AssetGraph.Proofs.Yaml.Words

/-!
# Progress through a document

Tokens are read one by one, each after the gap before it. As every token takes a character, the bound on their number is never met, and
whether the rest of a document is read the same from two places is a matter of the places alone.
-/
namespace AssetGraph.Yaml

namespace Layout

/-- Goes to the next token, with the candidates given up and the blocks closed that end before it. -/
def settle? (s : Layout) : Option Layout := s.skipGap.refreshAll?.map close

/-- Whether what is read from `s` on is what is read from `s'` on, however many tokens may follow. -/
def Leads (s s' : Layout) : Prop :=
  ∀ fuel, s.place.rest.length < fuel → ∃ fuel', s'.place.rest.length < fuel' ∧ s.readAll? fuel = s'.readAll? fuel'

variable {s s' t : Layout} {candidate? : Option Candidate} {keyAllowed : Bool} {rest : List Char} {line column count : Nat}

theorem readAll?_succ (fuel : Nat) (s : Layout) :
    readAll? (fuel + 1) s = s.settle?.bind fun t =>
      if t.place.rest.isEmpty then t.startsOver?.map (·.tokens.reverse) else t.readToken?.bind (readAll? fuel) := by
  rw [readAll?, settle?]
  cases s.skipGap.refreshAll? with
  | none => rfl
  | some t =>
    simp only [bind, Option.bind_some, Option.map_some]
    split
    · cases t.close.startsOver? <;> rfl
    · rfl

theorem Leads.trans (h : Leads s t) (h' : Leads t s') : Leads s s' := by
  intro fuel hfuel
  obtain ⟨more, hmore, heq⟩ := h fuel hfuel
  obtain ⟨left, hleft, heq'⟩ := h' more hmore
  exact ⟨left, hleft, heq.trans heq'⟩

theorem leads_of_settle?_eq (h : s.settle? = s'.settle?) (hlength : s'.place.rest.length ≤ s.place.rest.length) : Leads s s' := by
  intro fuel hfuel
  obtain ⟨fuel, rfl⟩ := Nat.exists_eq_add_one.mpr (Nat.zero_lt_of_lt hfuel)
  exact ⟨fuel + 1, Nat.lt_of_le_of_lt hlength hfuel, by rw [readAll?_succ, readAll?_succ, h]⟩

theorem leads_of_readToken? (hsettle : s.settle? = some t) (htoken : t.readToken? = some s')
    (hlength : s'.place.rest.length < s.place.rest.length) (hrest : t.place.rest ≠ []) : Leads s s' := by
  intro fuel hfuel
  obtain ⟨fuel, rfl⟩ := Nat.exists_eq_add_one.mpr (Nat.zero_lt_of_lt hfuel)
  refine ⟨fuel, by omega, ?_⟩
  rw [readAll?_succ, hsettle, Option.bind_some, if_neg (by simpa using hrest), htoken, Option.bind_some]

theorem skipGapFrom_replicate (inFlow : Bool) (count : Nat) (hrest : StartsLine rest) :
    skipGapFrom inFlow false keyAllowed line column (List.replicate count ' ' ++ rest) = (⟨rest, line, column + count⟩, keyAllowed) := by
  induction count generalizing column with
  | zero =>
    cases rest with
    | nil => rfl
    | cons c rest =>
      obtain ⟨hgap, hhash, hmark⟩ := hrest c rfl
      obtain ⟨⟨hspace, htab⟩, hbreak⟩ : (c ≠ ' ' ∧ c ≠ '\t') ∧ isBreak c = false := by
        simpa [isGap, isBlank] using hgap
      simp [skipGapFrom, hhash, hmark, hspace, htab, hbreak]
  | succ count ih =>
    have hbreak : isBreak ' ' = false := rfl
    simp [List.replicate_succ, skipGapFrom, hbreak, ih, Nat.add_assoc, Nat.add_comm 1]

/-- After a line break a key may start in a block. -/
theorem skipGapFrom_lineEnd (count : Nat) (hrest : StartsLine rest) :
    skipGapFrom false false keyAllowed line column ('\n' :: (List.replicate count ' ' ++ rest)) = (⟨rest, line + 1, count⟩, true) := by
  have hbreak : isBreak '\n' = true := rfl
  simp [skipGapFrom, hbreak, skipGapFrom_replicate false count hrest]

theorem refresh?_of_older {c : Candidate} {place : Cursor} (hline : c.line < place.line) (hrequired : c.required = false) :
    refresh? place (some c) = some none := by
  have hstale : isStale place c = true := by simp [isStale, hline]
  simp [refresh?, hstale, hrequired]

theorem refresh?_of_near {c : Candidate} {place : Cursor} (hline : place.line ≤ c.line) (hcolumn : place.column ≤ c.column + 1024) :
    refresh? place (some c) = some (some c) := by
  have hstale : isStale place c = false := by simp [isStale, Nat.not_lt.mpr hline, Nat.not_lt.mpr hcolumn]
  simp [refresh?, hstale]

theorem readToken?_of_canStart (hflow : s.inFlow = false) (hboundary : s.place.atBoundary = false)
    (hstart : Plain.canStart s.place.rest = true) : s.readToken? = s.readPlain? := by
  obtain ⟨hdocumentStart, hdocumentEnd⟩ := Bool.or_eq_false_iff.mp hboundary
  cases hrest : s.place.rest with
  | nil =>
    rw [hrest] at hstart
    cases hstart
  | cons c rest =>
    rw [hrest] at hstart
    have hcanStart := hstart
    simp only [Plain.canStart, Bool.and_eq_true, Bool.not_eq_true', Bool.or_eq_false_iff] at hstart
    obtain ⟨⟨-, hindicator⟩, hmark⟩ := hstart
    have hword (d : Char) (hd : ['-', '?', ':'].contains d = true) : (c == d && atWordEnd rest) = false := by
      rw [Bool.and_eq_false_iff, beq_eq_false_iff_ne]
      by_cases hcd : c = d
      · rw [hcd, hd, Bool.true_and] at hmark
        exact .inr hmark
      · exact .inl hcd
    simp only [isIndicator, isFlowMark, List.contains_cons, List.contains_nil, Bool.or_eq_false_iff, beq_eq_false_iff_ne] at hindicator
    simp [readToken?, hrest, hdocumentStart, hdocumentEnd, hflow, hindicator, hword, hcanStart]

section Marks

variable (hboundary : s.place.atBoundary = false)
include hboundary

theorem readToken?_hyphen (hrest : s.place.rest = '-' :: rest) (hend : atWordEnd rest = true) : s.readToken? = s.readBlockEntry? := by
  obtain ⟨hdocumentStart, hdocumentEnd⟩ := Bool.or_eq_false_iff.mp hboundary
  simp [readToken?, hrest, hdocumentStart, hdocumentEnd, hend]

theorem readToken?_colon (hrest : s.place.rest = ':' :: rest) (hend : atWordEnd rest = true) : s.readToken? = s.readValue? := by
  obtain ⟨hdocumentStart, hdocumentEnd⟩ := Bool.or_eq_false_iff.mp hboundary
  simp [readToken?, hrest, hdocumentStart, hdocumentEnd, hend]

theorem readToken?_quote (hrest : s.place.rest = '\'' :: rest) : s.readToken? = s.readQuoted? .singleQuoted '\'' := by
  obtain ⟨hdocumentStart, hdocumentEnd⟩ := Bool.or_eq_false_iff.mp hboundary
  simp [readToken?, hrest, hdocumentStart, hdocumentEnd]

theorem readToken?_bracket (hrest : s.place.rest = '[' :: rest) : s.readToken? = s.openFlow? .flowSequence := by
  obtain ⟨hdocumentStart, hdocumentEnd⟩ := Bool.or_eq_false_iff.mp hboundary
  simp [readToken?, hrest, hdocumentStart, hdocumentEnd]

theorem readToken?_closingBracket (hrest : s.place.rest = ']' :: rest) : s.readToken? = s.closeFlow? .flowSequenceEnd := by
  obtain ⟨hdocumentStart, hdocumentEnd⟩ := Bool.or_eq_false_iff.mp hboundary
  simp [readToken?, hrest, hdocumentStart, hdocumentEnd]

end Marks

end Layout

end AssetGraph.Yaml

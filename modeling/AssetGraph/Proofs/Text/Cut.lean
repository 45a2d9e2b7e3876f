import AssetGraph.Text
import AssetGraph.Text.Blank
import Mathlib.Data.List.DropRight

/-!
# Laws of cutting and joining

Cutting at every separator undoes joining with it, for parts that do not hold it. Cutting at the first or the last separator
finds the one that was put there. Dropping a character from the end leaves a text that does not end in it. Blanks around a
text do not matter once it is trimmed.
-/
namespace AssetGraph.Text

variable {sep : Char} {before after cs : List Char}

theorem splitAll_eq_splitOn (sep : Char) (cs : List Char) : splitAll sep cs = cs.splitOn sep := by
  induction cs with
  | nil => rfl
  | cons c rest ih =>
    rw [splitAll, ih, List.splitOn_cons_eq_if_modifyHead]
    by_cases hc : c = sep
    · rw [if_pos hc, if_pos (beq_iff_eq.mpr hc)]
    · rw [if_neg hc, if_neg (mt beq_iff_eq.mp hc)]
      cases hrest : rest.splitOn sep with
      | nil => exact absurd hrest (List.splitOn_ne_nil sep rest)
      | cons part parts => rfl

theorem notMem_of_mem_splitOn {part : List Char} (h : part ∈ cs.splitOn sep) : sep ∉ part := by
  induction cs generalizing part with
  | nil =>
    rw [List.splitOn_nil, List.mem_singleton] at h
    exact h ▸ List.not_mem_nil
  | cons c rest ih =>
    rw [List.splitOn_cons_eq_if_modifyHead] at h
    split at h
    · rcases List.mem_cons.mp h with rfl | htail
      · exact List.not_mem_nil
      · exact ih htail
    · rename_i hc
      cases hrest : rest.splitOn sep with
      | nil => exact absurd hrest (List.splitOn_ne_nil sep rest)
      | cons first others =>
        rw [hrest] at h ih
        rcases List.mem_cons.mp h with rfl | hothers
        · rw [List.mem_cons, not_or]
          exact ⟨fun heq => hc (beq_iff_eq.mpr heq.symm), ih List.mem_cons_self⟩
        · exact ih (List.mem_cons_of_mem _ hothers)

theorem join_eq_intercalate (sep : String) (parts : List String) : join sep parts = sep.intercalate parts := by
  induction parts with
  | nil => exact String.intercalate_nil.symm
  | cons part rest ih =>
    cases rest with
    | nil => exact String.intercalate_singleton.symm
    | cons next rest =>
      rw [join, ih, String.intercalate_cons_cons]
      exact nofun

theorem join_eq_empty_iff {sep : String} {parts : List String} (h : ∀ part ∈ parts, part ≠ "") :
    join sep parts = "" ↔ parts = [] := by
  cases parts with
  | nil => exact iff_of_true rfl rfl
  | cons part rest =>
    refine iff_of_false (fun hempty => h part List.mem_cons_self ?_) (List.cons_ne_nil part rest)
    rw [join_eq_intercalate] at hempty
    cases rest with
    | nil => rwa [String.intercalate_singleton] at hempty
    | cons next rest =>
      rw [String.intercalate_cons_of_ne_nil (List.cons_ne_nil next rest), String.append_eq_empty_iff,
        String.append_eq_empty_iff] at hempty
      exact hempty.1.1

theorem join_append {sep : String} {parts parts' : List String} (h : parts ≠ []) (h' : parts' ≠ []) :
    join sep (parts ++ parts') = join sep parts ++ sep ++ join sep parts' := by
  simp only [join_eq_intercalate]
  exact String.intercalate_append_of_ne_nil h h'

/-- What is joined at the end may be cut in other ways. -/
theorem join_append_congr {sep : String} {ending ending' : List String} (hne : ending ≠ []) (hne' : ending' ≠ [])
    (h : join sep ending = join sep ending') (parts : List String) : join sep (parts ++ ending) = join sep (parts ++ ending') := by
  induction parts with
  | nil => exact h
  | cons part parts ih =>
    rw [List.cons_append, List.cons_append, join, join, ih]
    · exact List.append_ne_nil_of_right_ne_nil parts hne'
    · exact List.append_ne_nil_of_right_ne_nil parts hne

theorem splitAll_join {s : String} (hs : s.toList = [sep]) {parts : List String} (hne : parts ≠ [])
    (h : ∀ part ∈ parts, sep ∉ part.toList) : splitAll sep (join s parts).toList = parts.map String.toList := by
  rw [splitAll_eq_splitOn, join_eq_intercalate, String.toList_intercalate, hs]
  apply List.splitOn_intercalate
  · intro part hpart
    obtain ⟨text, htext, rfl⟩ := List.mem_map.mp hpart
    exact h text htext
  · exact fun hnil => hne (List.map_eq_nil_iff.mp hnil)

theorem mem_join {c : Char} {s : String} {parts : List String} (h : c ∈ (join s parts).toList) :
    c ∈ s.toList ∨ ∃ part ∈ parts, c ∈ part.toList := by
  fun_induction join s parts with
  | case1 => exact absurd h List.not_mem_nil
  | case2 part => exact .inr ⟨part, List.mem_cons_self, h⟩
  | case3 part parts _ ih =>
    rw [String.toList_append, String.toList_append, List.mem_append, List.mem_append] at h
    rcases h with (hpart | hsep) | hrest
    · exact .inr ⟨part, List.mem_cons_self, hpart⟩
    · exact .inl hsep
    · exact (ih hrest).imp_right fun ⟨other, hother, hc⟩ => ⟨other, List.mem_cons_of_mem _ hother, hc⟩

theorem eq_or_exists_mem_splitOn {c : Char} (sep : Char) (h : c ∈ cs) : c = sep ∨ ∃ part ∈ cs.splitOn sep, c ∈ part := by
  have hjoined : (join (String.ofList [sep]) ((cs.splitOn sep).map String.ofList)).toList = cs := by
    rw [join_eq_intercalate, String.toList_intercalate, String.toList_ofList, List.map_map]
    simp [Function.comp_def, List.intercalate_splitOn]
  rw [← hjoined] at h
  rcases mem_join h with hsep | ⟨_, hpart, hc⟩
  · rw [String.toList_ofList, List.mem_singleton] at hsep
    exact .inl hsep
  · obtain ⟨part, hmem, rfl⟩ := List.mem_map.mp hpart
    rw [String.toList_ofList] at hc
    exact .inr ⟨part, hmem, hc⟩

theorem splitFirst?_append (h : sep ∉ before) : splitFirst? sep (before ++ sep :: after) = some (before, after) := by
  induction before with
  | nil => simp [splitFirst?]
  | cons c rest ih =>
    rw [List.mem_cons, not_or] at h
    rw [List.cons_append, splitFirst?, if_neg (Ne.symm h.1), ih h.2]
    rfl

theorem splitFirst?_eq_some_iff : splitFirst? sep cs = some (before, after) ↔ cs = before ++ sep :: after ∧ sep ∉ before := by
  constructor
  · exact eq_of_splitFirst?
  · rintro ⟨rfl, h⟩
    exact splitFirst?_append h

theorem splitLast?_eq_none_iff : splitLast? sep cs = none ↔ sep ∉ cs := by
  induction cs with
  | nil => exact iff_of_true rfl List.not_mem_nil
  | cons c rest ih =>
    rw [splitLast?, List.mem_cons, not_or]
    cases hrest : splitLast? sep rest with
    | some parts =>
      refine iff_of_false (Option.some_ne_none _) fun h => ?_
      rw [ih.mpr h.2] at hrest
      cases hrest
    | none =>
      by_cases hc : c = sep
      · simp [hc]
      · simp [hc, Ne.symm hc, ih.mp hrest]

theorem splitLast?_append (h : sep ∉ after) : splitLast? sep (before ++ sep :: after) = some (before, after) := by
  induction before with
  | nil => simp [splitLast?, splitLast?_eq_none_iff.mpr h]
  | cons c rest ih => rw [List.cons_append, splitLast?, ih]

theorem notMem_of_splitLast? (h : splitLast? sep cs = some (before, after)) : sep ∉ after := by
  induction cs generalizing before with
  | nil => cases h
  | cons c rest ih =>
    rw [splitLast?] at h
    split at h
    · rename_i hrest
      cases h
      exact ih hrest
    · rename_i hrest
      split at h
      · cases h
        exact splitLast?_eq_none_iff.mp hrest
      · cases h

theorem splitLast?_eq_some_iff : splitLast? sep cs = some (before, after) ↔ cs = before ++ sep :: after ∧ sep ∉ after := by
  constructor
  · exact fun h => ⟨eq_of_splitLast? h, notMem_of_splitLast? h⟩
  · rintro ⟨rfl, h⟩
    exact splitLast?_append h

theorem dropStart?_eq_some_iff : dropStart? before cs = some after ↔ cs = before ++ after := by
  induction before generalizing cs with
  | nil => rw [dropStart?, Option.some.injEq, List.nil_append]
  | cons c before ih =>
    cases cs with
    | nil => exact iff_of_false nofun nofun
    | cons d rest =>
      rw [dropStart?, List.cons_append, List.cons.injEq]
      split
      · rename_i hc
        rw [ih, and_iff_right hc.symm]
      · rename_i hc
        exact iff_of_false nofun fun h => hc h.1.symm

/-- What is taken ends where the text does or where the first character is that is not taken. -/
theorem takeWhile_eq_iff {p : Char → Bool} :
    cs.takeWhile p = before ↔
      ∃ rest, cs = before ++ rest ∧ (∀ c ∈ before, p c = true) ∧ ∀ c, rest.head? = some c → p c = false := by
  constructor
  · rintro rfl
    refine ⟨cs.dropWhile p, List.takeWhile_append_dropWhile.symm, fun c => List.mem_takeWhile_imp, fun c hc => ?_⟩
    have hfirst := List.head?_dropWhile_not p cs
    rw [hc] at hfirst
    exact hfirst
  · rintro ⟨rest, rfl, hbefore, hrest⟩
    rw [List.takeWhile_append_of_pos hbefore]
    cases rest with
    | nil => exact List.append_nil before
    | cons c rest => rw [List.takeWhile_cons_of_neg (Bool.eq_false_iff.mp (hrest c rfl)), List.append_nil]

theorem dropFinal_eq (c : Char) (cs : List Char) : dropFinal c cs = if cs.getLast? = some c then cs.dropLast else cs := by
  fun_induction dropFinal c cs with
  | case1 => rfl
  | case2 => simp
  | case3 d hd => simp [hd]
  | case4 d rest hrest ih =>
    cases rest with
    | nil => exact absurd rfl hrest
    | cons e rest =>
      rw [ih, List.getLast?_cons_cons, List.dropLast_cons_cons]
      split <;> rfl

theorem dropFinal_cases (c : Char) (cs : List Char) : cs = dropFinal c cs ∨ cs = dropFinal c cs ++ [c] := by
  rw [dropFinal_eq]
  split
  · rename_i hlast
    exact .inr (List.dropLast_append_getLast? c hlast).symm
  · exact .inl rfl

theorem dropAllFinal_eq_rdropWhile (c : Char) (cs : List Char) : dropAllFinal c cs = cs.rdropWhile (· == c) := rfl

/-- A text is one that does not end in a character, and some more of that character. -/
theorem exists_dropAllFinal (c : Char) (cs : List Char) :
    ∃ count, cs = dropAllFinal c cs ++ List.replicate count c ∧ (dropAllFinal c cs).getLast? ≠ some c := by
  refine ⟨(cs.rtakeWhile (· == c)).length, ?_, fun hlast => ?_⟩
  · have hall : ∀ d ∈ cs.rtakeWhile (· == c), d = c := by
      intro d hd
      simpa using List.mem_rtakeWhile_imp hd
    rw [← List.eq_replicate_of_mem hall, dropAllFinal_eq_rdropWhile, List.rdropWhile_append_rtakeWhile]
  · obtain ⟨hne, hc⟩ := List.mem_getLast?_eq_getLast hlast
    exact List.rdropWhile_last_not (· == c) cs hne (beq_iff_eq.mpr hc.symm)

/-- Of a text that does not end in a character, nothing is dropped but what was put behind it. -/
theorem dropAllFinal_append_replicate {c : Char} (h : cs.getLast? ≠ some c) (count : Nat) :
    dropAllFinal c (cs ++ List.replicate count c) = cs := by
  induction count with
  | zero =>
    rw [List.replicate_zero, List.append_nil, dropAllFinal_eq_rdropWhile, List.rdropWhile_eq_self_iff]
    intro hne hlast
    rw [List.getLast?_eq_getLast_of_ne_nil hne] at h
    exact h (congrArg some (beq_iff_eq.mp hlast))
  | succ count ih =>
    rw [List.replicate_succ', ← List.append_assoc, dropAllFinal_eq_rdropWhile,
      List.rdropWhile_concat_pos (· == c) _ c (beq_self_eq_true c)]
    exact ih

theorem trim_surrounded (hbefore : ∀ c ∈ before, isBlank c = true) (hafter : ∀ c ∈ after, isBlank c = true) :
    trim (before ++ cs ++ after) = trim cs := by
  unfold trim
  rw [List.append_assoc, List.dropWhile_append_of_pos hbefore, List.dropWhile_append]
  split
  · rename_i hblank
    rw [List.isEmpty_iff.mp hblank, ← List.append_nil after, List.dropWhile_append_of_pos hafter]
    rfl
  · rw [List.reverse_append, List.dropWhile_append_of_pos fun c hc => hafter c (List.mem_reverse.mp hc)]

theorem dropWhile_isBlank_eq_self (h : ∀ c ∈ cs, isBlank c = false) : cs.dropWhile isBlank = cs := by
  cases cs with
  | nil => rfl
  | cons c rest => exact List.dropWhile_cons_of_neg (Bool.eq_false_iff.mp (h c List.mem_cons_self))

theorem trim_eq_self (h : ∀ c ∈ cs, isBlank c = false) : trim cs = cs := by
  rw [trim, dropWhile_isBlank_eq_self h, dropWhile_isBlank_eq_self fun c hc => h c (List.mem_reverse.mp hc),
    List.reverse_reverse]

/-- What trimming takes from a text is blanks around it. -/
theorem exists_surrounding (cs : List Char) :
    ∃ before after, cs = before ++ trim cs ++ after ∧ (∀ c ∈ before, isBlank c = true) ∧ ∀ c ∈ after, isBlank c = true := by
  have hfront : cs.takeWhile isBlank ++ cs.dropWhile isBlank = cs := List.takeWhile_append_dropWhile
  have hback : trim cs ++ ((cs.dropWhile isBlank).reverse.takeWhile isBlank).reverse = cs.dropWhile isBlank := by
    rw [trim, ← List.reverse_append, List.takeWhile_append_dropWhile, List.reverse_reverse]
  refine ⟨cs.takeWhile isBlank, ((cs.dropWhile isBlank).reverse.takeWhile isBlank).reverse, ?_, fun c hc => ?_, fun c hc => ?_⟩
  · rw [List.append_assoc, hback, hfront]
  · exact List.all_eq_true.mp List.all_takeWhile c hc
  · exact List.all_eq_true.mp List.all_takeWhile c (List.mem_reverse.mp hc)

theorem mapM_map_eq_some {α β : Type} {read? : β → Option α} {write : α → β} {values : List α}
    (h : ∀ value ∈ values, read? (write value) = some value) : (values.map write).mapM read? = some values := by
  induction values with
  | nil => rfl
  | cons value rest ih =>
    obtain ⟨hvalue, hrest⟩ := List.forall_mem_cons.mp h
    rw [List.map_cons, List.mapM_cons, hvalue, ih hrest]
    rfl

theorem isSome_of_mapM {α β : Type} {read? : α → Option β} {parts : List α} {values : List β}
    (h : parts.mapM read? = some values) {part : α} (hpart : part ∈ parts) : (read? part).isSome = true := by
  induction parts generalizing values with
  | nil => cases hpart
  | cons first rest ih =>
    rw [List.mapM_cons, Option.bind_eq_bind, Option.bind_eq_some_iff] at h
    obtain ⟨value, hfirst, h⟩ := h
    rw [Option.bind_eq_bind, Option.bind_eq_some_iff] at h
    obtain ⟨others, hrest, -⟩ := h
    rcases List.mem_cons.mp hpart with rfl | htail
    · exact Option.isSome_of_eq_some hfirst
    · exact ih hrest htail

end AssetGraph.Text

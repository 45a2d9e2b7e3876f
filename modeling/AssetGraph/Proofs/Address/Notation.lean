import AssetGraph.Address.Notation
import AssetGraph.Proofs.Network.Interval
import AssetGraph.Proofs.Text.Cut
import AssetGraph.Proofs.Text.Numeral
import Mathlib.Data.List.TakeWhile

/-!
# Addresses read as they were written

Every address is written with digits, points and colons, and reading that text gives the address back: four numbers for IPv4,
and for IPv6 eight groups, of which a run of zeros may be left out, or the dotted form behind `::ffff:`.
-/
namespace AssetGraph.Address

section Dotted

variable {cs : List Char} {c : Char} {n : Nat}

theorem readOctet?_render (h : n < 256) : readOctet? (Numeral.render 10 n) = some n := by
  have hread : Numeral.read? 10 (Numeral.render 10 n) = some n := Numeral.read?_render (by decide) (by decide) n
  have hlength : (Numeral.render 10 n).length ≤ 2 + 1 := Numeral.length_render_le (by decide) (by omega)
  have hlead : (Numeral.render 10 n).head? ≠ some '0' ∨ (Numeral.render 10 n).length = 1 := by
    by_cases hzero : n = 0
    · exact .inr (by rw [hzero, Numeral.render_of_lt (by decide)]; rfl)
    · exact .inl (Numeral.head?_render_ne_zero (by decide) (by decide) hzero)
  rw [readOctet?, if_pos ⟨hlength, hlead⟩, hread]
  exact Option.filter_some_pos (decide_eq_true h)

/-- Shifting by whole digits is dividing by a power of their base. -/
theorem toNat_ushiftRight_mul {width bits base : Nat} (hbase : 2 ^ bits = base) (word : BitVec width) (place : Nat) :
    (word >>> (bits * place)).toNat = word.toNat / base ^ place := by
  rw [BitVec.toNat_ushiftRight, Nat.shiftRight_eq_div_pow, Nat.pow_mul, hbase]

theorem octets_eq (a : Address) :
    a.octets = (List.range (a.width / 8)).map fun i => a.toWord.toNat / 256 ^ (a.width / 8 - 1 - i) % 256 := by
  have hbase : 2 ^ 8 = 256 := rfl
  cases a with
  | v4 word =>
    have hword : (word.setWidth 128).toNat = word.toNat := BitVec.toNat_setWidth_of_le (by decide)
    simp only [octets, width, toWord, Nat.reduceDiv]
    refine List.map_congr_left fun i hi => ?_
    have hplace : 24 - 8 * i = 8 * (4 - 1 - i) := by
      have := List.mem_range.mp hi
      omega
    rw [hplace, toNat_ushiftRight_mul hbase, hword]
  | v6 word =>
    simp only [octets, width, toWord, Nat.reduceDiv]
    refine List.map_congr_left fun i hi => ?_
    have hplace : 120 - 8 * i = 8 * (16 - 1 - i) := by
      have := List.mem_range.mp hi
      omega
    rw [hplace, toNat_ushiftRight_mul hbase]

theorem ofDigits_octets (a : Address) : Numeral.ofDigits 256 a.octets = a.toWord.toNat := by
  have hsize : 256 ^ (a.width / 8) = 2 ^ a.width := by cases a <;> simp [width]
  rw [octets_eq, Numeral.ofDigits_positions, hsize]
  exact Nat.mod_eq_of_lt a.toWord_lt

theorem lt_of_mem_octets {a : Address} (h : n ∈ a.octets) : n < 256 := by
  cases a <;> obtain ⟨i, -, rfl⟩ := List.mem_map.mp h <;> exact Nat.mod_lt _ (by decide)

theorem splitAll_renderV4 (word : BitVec 32) :
    Text.splitAll '.' (renderV4 word).toList = (v4 word).octets.map (Numeral.render 10) := by
  have hpoint : ".".toList = ['.'] := by decide
  have hparts : (v4 word).octets.map Numeral.text ≠ [] := List.cons_ne_nil _ _
  rw [renderV4, Text.splitAll_join hpoint hparts, List.map_map]
  · exact List.map_congr_left fun n _ => String.toList_ofList
  · intro part hpart
    obtain ⟨n, -, rfl⟩ := List.mem_map.mp hpart
    rw [Numeral.text, String.toList_ofList]
    exact Numeral.notMem_render (by decide) (by decide) (by decide)

theorem ofOctets_octets {a b c d : Nat} {word : BitVec 32} (h : (v4 word).octets = [a, b, c, d]) : ofOctets a b c d = word := by
  have hvalue : Numeral.ofDigits 256 (v4 word).octets = word.toNat :=
    (ofDigits_octets (v4 word)).trans (BitVec.toNat_setWidth_of_le (by decide))
  rw [h] at hvalue
  have hnumber : ((a * 256 + b) * 256 + c) * 256 + d = word.toNat := by
    rw [← hvalue]
    simp [Numeral.ofDigits]
  rw [ofOctets, hnumber, BitVec.ofNat_toNat, BitVec.setWidth_eq]

theorem parseV4?_renderV4 (word : BitVec 32) : parseV4? (renderV4 word).toList = some word := by
  obtain ⟨a, b, c, d, hoctets⟩ : ∃ a b c d, (v4 word).octets = [a, b, c, d] := ⟨_, _, _, _, rfl⟩
  have hread : ∀ n ∈ [a, b, c, d], readOctet? (Numeral.render 10 n) = some n := fun n hn =>
    readOctet?_render (lt_of_mem_octets (hoctets ▸ hn))
  simp only [List.forall_mem_cons] at hread
  obtain ⟨ha, hb, hc, hd, -⟩ := hread
  rw [parseV4?, splitAll_renderV4, hoctets]
  simp only [List.map_cons, List.map_nil, ha, hb, hc, hd]
  exact congrArg some (ofOctets_octets hoctets)

theorem isDigit_of_readOctet? (h : readOctet? cs = some n) (hc : c ∈ cs) :
    (Numeral.digitValue? 10 c).isSome = true := by
  rw [readOctet?] at h
  split at h
  · exact Numeral.isSome_digitValue?_of_read? (Option.filter_eq_some_iff.mp h).1 hc
  · cases h

theorem eq_point_or_isDigit_of_parseV4? {word : BitVec 32} (h : parseV4? cs = some word) (hc : c ∈ cs) :
    c = '.' ∨ (Numeral.digitValue? 10 c).isSome = true := by
  refine (Text.eq_or_exists_mem_splitOn '.' hc).imp_right fun ⟨part, hpart, hc⟩ => ?_
  rw [parseV4?] at h
  split at h
  · rename_i first second third fourth hparts
    simp only [Option.bind_eq_bind, Option.bind_eq_some_iff] at h
    obtain ⟨_, h1, _, h2, _, h3, _, h4, -⟩ := h
    rw [← Text.splitAll_eq_splitOn, hparts] at hpart
    simp only [List.mem_cons, List.not_mem_nil, or_false] at hpart
    rcases hpart with rfl | rfl | rfl | rfl
    · exact isDigit_of_readOctet? h1 hc
    · exact isDigit_of_readOctet? h2 hc
    · exact isDigit_of_readOctet? h3 hc
    · exact isDigit_of_readOctet? h4 hc
  · cases h

theorem parseV4?_of_colon (h : ':' ∈ cs) : parseV4? cs = none := by
  rw [Option.eq_none_iff_forall_ne_some]
  intro word hread
  rcases eq_point_or_isDigit_of_parseV4? hread h with hpoint | hdigit
  · exact absurd hpoint (by decide)
  · exact absurd hdigit (by decide)

theorem colon_notMem_renderV4 (word : BitVec 32) : ':' ∉ (renderV4 word).toList := by
  intro hcolon
  have hnone := parseV4?_of_colon hcolon
  rw [parseV4?_renderV4] at hnone
  cases hnone

end Dotted

section Groups

variable {gs : List Nat} {part : List Char} {g : Nat}

theorem readGroup?_render (h : g < 65536) : readGroup? (Numeral.render 16 g) = some g := by
  have hlength : (Numeral.render 16 g).length ≤ 3 + 1 := Numeral.length_render_le (by decide) (by omega)
  rw [readGroup?, if_pos hlength]
  exact Numeral.read?_render (by decide) (by decide) g

theorem groups_eq (word : BitVec 128) :
    groups word = (List.range 8).map fun i => word.toNat / 65536 ^ (8 - 1 - i) % 65536 := by
  refine List.map_congr_left fun i hi => ?_
  have hshift : 112 - 16 * i = 16 * (8 - 1 - i) := by
    have := List.mem_range.mp hi
    omega
  have hbase : 2 ^ 16 = 65536 := rfl
  rw [hshift, toNat_ushiftRight_mul hbase]

theorem lt_of_mem_groups {word : BitVec 128} (h : g ∈ groups word) : g < 65536 := by
  obtain ⟨i, -, rfl⟩ := List.mem_map.mp h
  exact Nat.mod_lt _ (by decide)

theorem ofGroups_groups (word : BitVec 128) : ofGroups (groups word) = word := by
  have hvalue : Numeral.ofDigits 65536 (groups word) = word.toNat := by
    rw [groups_eq, Numeral.ofDigits_positions]
    exact Nat.mod_eq_of_lt word.isLt
  change BitVec.ofNat 128 (Numeral.ofDigits 65536 (groups word)) = word
  rw [hvalue, BitVec.ofNat_toNat, BitVec.setWidth_eq]

theorem renderGroups_singleton (g : Nat) : (renderGroups [g]).toList = Numeral.render 16 g := String.toList_ofList

theorem renderGroups_cons (g next : Nat) (rest : List Nat) :
    (renderGroups (g :: next :: rest)).toList = Numeral.render 16 g ++ ':' :: (renderGroups (next :: rest)).toList := by
  have hcolon : ":".toList = [':'] := by decide
  simp [renderGroups, Text.join, String.toList_append, hcolon]

theorem colon_notMem_render (g : Nat) : ':' ∉ Numeral.render 16 g :=
  Numeral.notMem_render (by decide) (by decide) (by decide)

theorem colonParts_renderGroups (gs : List Nat) : colonParts (renderGroups gs).toList = gs.map (Numeral.render 16) := by
  cases gs with
  | nil => decide
  | cons g rest =>
    have hcolon : ":".toList = [':'] := by decide
    have htext : (renderGroups (g :: rest)).toList.isEmpty = false := by
      cases rest with
      | nil => simp [renderGroups_singleton, Numeral.render_ne_nil]
      | cons next rest => simp [renderGroups_cons]
    have hparts : (g :: rest).map (fun g => String.ofList (Numeral.render 16 g)) ≠ [] := List.cons_ne_nil _ _
    rw [colonParts, htext, renderGroups, if_neg nofun, Text.splitAll_join hcolon hparts, List.map_map]
    · exact List.map_congr_left fun n _ => String.toList_ofList
    · intro part hpart
      obtain ⟨n, -, rfl⟩ := List.mem_map.mp hpart
      rw [String.toList_ofList]
      exact colon_notMem_render n

theorem mapM_readGroup?_render (h : ∀ g ∈ gs, g < 65536) : (gs.map (Numeral.render 16)).mapM readGroup? = some gs :=
  Text.mapM_map_eq_some fun g hg => readGroup?_render (h g hg)

theorem parseV4?_render (g : Nat) : parseV4? (Numeral.render 16 g) = none := by
  have hpoint : '.' ∉ Numeral.render 16 g := Numeral.notMem_render (by decide) (by decide) (by decide)
  rw [parseV4?, Text.splitAll_eq_splitOn, List.splitOn_eq_singleton hpoint]

theorem readGroups?_render (h : ∀ g ∈ gs, g < 65536) : readGroups? (gs.map (Numeral.render 16)) = some gs := by
  induction gs with
  | nil => rfl
  | cons g rest ih =>
    obtain ⟨hg, hrest⟩ := List.forall_mem_cons.mp h
    cases rest with
    | nil => simp [readGroups?, parseV4?_render, readGroup?_render hg]
    | cons next rest =>
      rw [List.map_cons] at ih
      simp [readGroups?, readGroup?_render hg, ih hrest]

end Groups

section Gap

variable {part rest : List Char} {c : Char}

theorem splitGap?_cons (hc : c ≠ ':') (rest : List Char) :
    splitGap? (c :: rest) = (splitGap? rest).map fun found => (c :: found.1, found.2) := by
  rw [splitGap?]
  exact fun _ hcolon _ => hc hcolon

theorem splitGap?_colon_cons (hc : c ≠ ':') (rest : List Char) :
    splitGap? (':' :: c :: rest) = (splitGap? (c :: rest)).map fun found => (':' :: found.1, found.2) := by
  rw [splitGap?]
  exact fun _ _ hrest => hc (List.cons.inj hrest).1

theorem splitGap?_append (h : ':' ∉ part) (rest : List Char) :
    splitGap? (part ++ rest) = (splitGap? rest).map fun found => (part ++ found.1, found.2) := by
  induction part with
  | nil => simp
  | cons c part ih =>
    rw [List.mem_cons, not_or] at h
    rw [List.cons_append, splitGap?_cons (Ne.symm h.1), ih h.2, Option.map_map]
    rfl

theorem exists_head_renderGroups (g : Nat) (gs : List Nat) :
    ∃ c cs, (renderGroups (g :: gs)).toList = c :: cs ∧ c ≠ ':' := by
  obtain ⟨c, cs, hcons⟩ := List.exists_cons_of_ne_nil (Numeral.render_ne_nil 16 g)
  have hc : c ≠ ':' := by
    rintro rfl
    exact colon_notMem_render g (hcons ▸ List.mem_cons_self)
  cases gs with
  | nil => exact ⟨c, cs, (renderGroups_singleton g).trans hcons, hc⟩
  | cons next gs => exact ⟨c, _, by rw [renderGroups_cons, hcons, List.cons_append], hc⟩

/-- Between groups there are single colons only, so that the first gap comes after them. -/
theorem splitGap?_renderGroups (gs : List Nat) (rest : List Char) :
    splitGap? ((renderGroups gs).toList ++ rest) =
      (splitGap? rest).map fun found => ((renderGroups gs).toList ++ found.1, found.2) := by
  induction gs with
  | nil => simp [renderGroups, Text.join]
  | cons g gs ih =>
    cases gs with
    | nil =>
      rw [renderGroups_singleton]
      exact splitGap?_append (colon_notMem_render g) rest
    | cons next gs =>
      obtain ⟨c, cs, hcons, hc⟩ := exists_head_renderGroups next gs
      have hrest : splitGap? (':' :: (renderGroups (next :: gs)).toList ++ rest) =
          (splitGap? rest).map fun found => (':' :: (renderGroups (next :: gs)).toList ++ found.1, found.2) := by
        rw [hcons] at ih ⊢
        rw [List.cons_append, List.cons_append, splitGap?_colon_cons hc, ← List.cons_append, ih, Option.map_map]
        rfl
      rw [renderGroups_cons, List.append_assoc, splitGap?_append (colon_notMem_render g), hrest, Option.map_map]
      simp [Function.comp_def]

end Gap

section Zeros

variable {gs : List Nat}

theorem take_eq_replicate {count : Nat} (h : count ≤ zerosAhead gs) : gs.take count = List.replicate count 0 := by
  have hahead : gs.take count = (gs.takeWhile (· == 0)).take count := by
    conv => lhs; rw [← List.takeWhile_append_dropWhile (p := (· == 0)) (l := gs)]
    exact List.take_append_of_le_length h
  rw [hahead, List.eq_replicate_iff]
  refine ⟨List.length_take_of_le h, fun g hg => ?_⟩
  have hzero : (g == 0) = true := List.mem_takeWhile_imp (p := (· == 0)) (List.mem_of_mem_take hg)
  exact beq_iff_eq.mp hzero

/-- The run that is left out consists of zeros: no run is taken for longer than it is. -/
theorem longestZeros_le (gs : List Nat) : (longestZeros gs).2 ≤ zerosAhead (gs.drop (longestZeros gs).1) := by
  refine List.foldlRecOn _ _ (motive := fun best : Nat × Nat => best.2 ≤ zerosAhead (gs.drop best.1)) (Nat.zero_le _) ?_
  intro best hbest i _
  split
  · exact Nat.le_refl _
  · exact hbest

theorem split_at_longestZeros (gs : List Nat) :
    gs.take (longestZeros gs).1 ++ List.replicate (longestZeros gs).2 0 ++
      gs.drop ((longestZeros gs).1 + (longestZeros gs).2) = gs := by
  rw [← take_eq_replicate (longestZeros_le gs), List.append_assoc, ← List.drop_drop, List.take_append_drop,
    List.take_append_drop]

end Zeros

section Colons

theorem groups_length (word : BitVec 128) : (groups word).length = 8 := rfl

theorem parseV6?_renderGroups (word : BitVec 128) : parseV6? (renderGroups (groups word)).toList = some word := by
  have hgap : splitGap? (renderGroups (groups word)).toList = none := by
    have hnone := splitGap?_renderGroups (groups word) []
    rwa [List.append_nil] at hnone
  have hread : readGroups? ((groups word).map (Numeral.render 16)) = some (groups word) :=
    readGroups?_render fun g => lt_of_mem_groups
  rw [parseV6?, hgap]
  dsimp only
  rw [colonParts_renderGroups, hread]
  simp [groups_length, ofGroups_groups]

/-- Groups around a gap are read as they were written, with as many zeros between them as are missing. -/
theorem parseV6?_gap {front back : List Nat} {count : Nat} {word : BitVec 128} (hcount : 0 < count)
    (h : front ++ List.replicate count 0 ++ back = groups word) :
    parseV6? (renderGroups front ++ "::" ++ renderGroups back).toList = some word := by
  have hcolons : "::".toList = [':', ':'] := by decide
  have hgap : splitGap? (renderGroups front ++ "::" ++ renderGroups back).toList =
      some ((renderGroups front).toList, (renderGroups back).toList) := by
    rw [String.toList_append, String.toList_append, hcolons, List.append_assoc, splitGap?_renderGroups]
    simp [splitGap?]
  have hsmall : ∀ g ∈ front ++ List.replicate count 0 ++ back, g < 65536 := fun g hg => lt_of_mem_groups (h ▸ hg)
  have hfront : ∀ g ∈ front, g < 65536 := fun g hg => hsmall g (by simp [hg])
  have hback : ∀ g ∈ back, g < 65536 := fun g hg => hsmall g (by simp [hg])
  have hlength : front.length + count + back.length = 8 := by
    rw [← groups_length word, ← h]
    simp [Nat.add_assoc]
  have hmissing : 8 - front.length - back.length = count := by omega
  have hfits : front.length + back.length ≤ 7 := by omega
  rw [parseV6?, hgap]
  dsimp only
  rw [colonParts_renderGroups, colonParts_renderGroups, mapM_readGroup?_render hfront, readGroups?_render hback]
  simp only [Option.bind_eq_bind, Option.bind_some, hfits, if_true, hmissing, h, ofGroups_groups]

theorem ofGroups_mapped (word : BitVec 32) :
    ofGroups [0, 0, 0, 0, 0, 0xFFFF, word.toNat / 65536, word.toNat % 65536] = 0xFFFF#96 ++ word := by
  have hword := word.isLt
  apply BitVec.eq_of_toNat_eq
  rw [ofGroups, BitVec.toNat_ofNat, BitVec.toNat_append, ← Nat.shiftLeft_add_eq_or_of_lt hword, Nat.shiftLeft_eq]
  simp only [List.foldl_cons, List.foldl_nil, BitVec.toNat_ofNat]
  omega

/-- The dotted form behind the groups that mark an IPv4-mapped address is read as it was written. -/
theorem parseV6?_mapped (word : BitVec 32) :
    parseV6? ("::ffff:" ++ renderV4 word).toList = some (0xFFFF#96 ++ word) := by
  have hmark : "::ffff:".toList = [':', ':', 'f', 'f', 'f', 'f', ':'] := by decide
  have hgap : splitGap? ("::ffff:" ++ renderV4 word).toList =
      some ([], ['f', 'f', 'f', 'f'] ++ ':' :: (renderV4 word).toList) := by
    rw [String.toList_append, hmark]
    simp [splitGap?]
  have hcut : colonParts (['f', 'f', 'f', 'f'] ++ ':' :: (renderV4 word).toList) =
      [['f', 'f', 'f', 'f'], (renderV4 word).toList] := by
    rw [colonParts, if_neg nofun, Text.splitAll_eq_splitOn, List.splitOn_append_cons_self_of_not_mem (by decide),
      List.splitOn_eq_singleton (colon_notMem_renderV4 word)]
  have hread : readGroups? [['f', 'f', 'f', 'f'], (renderV4 word).toList] =
      some [0xFFFF, word.toNat / 65536, word.toNat % 65536] := by
    have hgroup : readGroup? ['f', 'f', 'f', 'f'] = some 0xFFFF := by decide +kernel
    simp [readGroups?, parseV4?_renderV4, hgroup]
  rw [parseV6?, hgap]
  dsimp only
  rw [hcut, hread]
  exact congrArg some (ofGroups_mapped word)

theorem parseV6?_renderV6 (word : BitVec 128) : parseV6? (renderV6 word).toList = some word := by
  unfold renderV6
  split
  · rename_i inner hunmapped
    obtain ⟨carried, hword⟩ : (v6 word).IsMapped := by
      rw [isMapped_iff, hunmapped]
      exact nofun
    rw [hword, unmap_mapped] at hunmapped
    rw [parseV6?_mapped, ← v4.inj hunmapped]
    exact congrArg some (v6.inj hword).symm
  · dsimp only
    split
    · rename_i hcount
      exact parseV6?_gap (by omega) (split_at_longestZeros (groups word))
    · exact parseV6?_renderGroups word

end Colons

section Characters

variable {c : Char} {cs : List Char} {parts : List (List Char)}

def IsAddressChar (c : Char) : Prop :=
  c = ':' ∨ c = '.' ∨ (Numeral.digitValue? 16 c).isSome = true

theorem isDigit_of_readGroup? {g : Nat} (h : readGroup? cs = some g) (hc : c ∈ cs) :
    (Numeral.digitValue? 16 c).isSome = true := by
  rw [readGroup?] at h
  split at h
  · exact Numeral.isSome_digitValue?_of_read? h hc
  · cases h

theorem isAddressChar_of_parseV4? {word : BitVec 32} (h : parseV4? cs = some word) (hc : c ∈ cs) : IsAddressChar c :=
  .inr ((eq_point_or_isDigit_of_parseV4? h hc).imp_right (Numeral.isSome_digitValue?_of_le (by decide)))

theorem isAddressChar_of_readGroups? {gs : List Nat} (h : readGroups? parts = some gs) {part : List Char} (hpart : part ∈ parts)
    (hc : c ∈ part) : IsAddressChar c := by
  fun_induction readGroups? parts generalizing gs with
  | case1 => cases hpart
  | case2 last word hdotted =>
    rw [List.mem_singleton] at hpart
    exact isAddressChar_of_parseV4? hdotted (hpart ▸ hc)
  | case3 last _ =>
    obtain ⟨g, hg, -⟩ := Option.map_eq_some_iff.mp h
    rw [List.mem_singleton] at hpart
    exact .inr (.inr (isDigit_of_readGroup? hg (hpart ▸ hc)))
  | case4 first others _ ih =>
    simp only [Option.bind_eq_bind, Option.bind_eq_some_iff] at h
    obtain ⟨g, hg, rest, hrest, -⟩ := h
    rcases List.mem_cons.mp hpart with rfl | hothers
    · exact .inr (.inr (isDigit_of_readGroup? hg hc))
    · exact ih hrest hothers

theorem eq_of_splitGap? {before after : List Char} (h : splitGap? cs = some (before, after)) :
    cs = before ++ ':' :: ':' :: after := by
  fun_induction splitGap? cs generalizing before with
  | case1 rest =>
    cases h
    rfl
  | case2 first rest _ ih =>
    obtain ⟨⟨start, stop⟩, hfound, heq⟩ := Option.map_eq_some_iff.mp h
    cases heq
    rw [ih hfound, List.cons_append]
  | case3 => cases h

theorem eq_colon_or_exists_mem_colonParts (h : c ∈ cs) : c = ':' ∨ ∃ part ∈ colonParts cs, c ∈ part := by
  have hsome : cs.isEmpty = false := List.isEmpty_eq_false_iff.mpr (List.ne_nil_of_mem h)
  rw [colonParts, hsome, if_neg nofun, Text.splitAll_eq_splitOn]
  exact Text.eq_or_exists_mem_splitOn ':' h

theorem isAddressChar_of_parseV6? {word : BitVec 128} (h : parseV6? cs = some word) (hc : c ∈ cs) : IsAddressChar c := by
  have hgroups : ∀ {cs : List Char} {gs : List Nat}, readGroups? (colonParts cs) = some gs → c ∈ cs → IsAddressChar c := by
    intro cs gs hread hc
    rcases eq_colon_or_exists_mem_colonParts hc with hcolon | ⟨part, hpart, hc⟩
    · exact .inl hcolon
    · exact isAddressChar_of_readGroups? hread hpart hc
  rw [parseV6?] at h
  split at h
  · rename_i before after hgap
    simp only [Option.bind_eq_bind, Option.bind_eq_some_iff] at h
    obtain ⟨front, hfront, back, hback, -⟩ := h
    rw [eq_of_splitGap? hgap, List.mem_append, List.mem_cons, List.mem_cons] at hc
    rcases hc with hc | hcolon | hcolon | hc
    · rcases eq_colon_or_exists_mem_colonParts hc with hcolon | ⟨part, hpart, hc⟩
      · exact .inl hcolon
      · obtain ⟨g, hg⟩ := Option.isSome_iff_exists.mp (Text.isSome_of_mapM hfront hpart)
        exact .inr (.inr (isDigit_of_readGroup? hg hc))
    · exact .inl hcolon
    · exact .inl hcolon
    · exact hgroups hback hc
  · rw [Option.bind_eq_bind, Option.bind_eq_some_iff] at h
    obtain ⟨gs, hread, -⟩ := h
    exact hgroups hread hc

theorem isAddressChar_of_parse? {s : String} {a : Address} (h : parse? s = some a) (hc : c ∈ s.toList) : IsAddressChar c := by
  rw [parse?] at h
  split at h
  · rename_i word hdotted
    exact isAddressChar_of_parseV4? hdotted hc
  · obtain ⟨word, hcolons, -⟩ := Option.map_eq_some_iff.mp h
    exact isAddressChar_of_parseV6? hcolons hc

end Characters

theorem colon_mem_renderV6 (word : BitVec 128) : ':' ∈ (renderV6 word).toList := by
  have hmark : ':' ∈ "::ffff:".toList := by decide
  have hgap : ':' ∈ "::".toList := by decide
  unfold renderV6
  split
  · rw [String.toList_append]
    exact List.mem_append_left _ hmark
  · dsimp only
    split
    · rw [String.toList_append, String.toList_append]
      exact List.mem_append_left _ (List.mem_append_right _ hgap)
    · obtain ⟨g, next, rest, hgroups⟩ : ∃ g next rest, groups word = g :: next :: rest := ⟨_, _, _, rfl⟩
      rw [hgroups, renderGroups_cons]
      exact List.mem_append_right _ List.mem_cons_self

/-- Every address is read as it was written. -/
theorem parse?_render (a : Address) : parse? a.render = some a := by
  cases a with
  | v4 word => rw [parse?, render, parseV4?_renderV4]
  | v6 word =>
    rw [parse?, render, parseV4?_of_colon (colon_mem_renderV6 word), parseV6?_renderV6]
    rfl

end AssetGraph.Address

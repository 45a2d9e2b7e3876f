import AssetGraph.Address.ReverseName
import AssetGraph.Proofs.Address.Notation

/-!
# Addresses by their reverse names

The reverse name of an address has its octets or its nibbles as labels, the lowest first. Read backwards they are the digits of the
address, so that the name tells the address.
-/
namespace AssetGraph.Address

variable {a b : Address}

def nibbles (word : BitVec 128) : List Nat := (List.range 32).map fun i => word.toNat / 16 ^ (31 - i) % 16

theorem lt_of_mem_nibbles {word : BitVec 128} {d : Nat} (h : d ∈ nibbles word) : d < 16 := by
  obtain ⟨i, -, rfl⟩ := List.mem_map.mp h
  exact Nat.mod_lt _ (by decide)

theorem ofDigits_nibbles (word : BitVec 128) : Numeral.ofDigits 16 (nibbles word) = word.toNat := by
  have hsize : 16 ^ 32 = 2 ^ 128 := by decide
  have hvalue := Numeral.ofDigits_positions 16 32 word.toNat
  rw [hsize, Nat.mod_eq_of_lt word.isLt] at hvalue
  exact hvalue

theorem flatMap_octets (word : BitVec 128) : ((v6 word).octets.flatMap fun o => [o / 16, o % 16]) = nibbles word := by
  have hsquare : 16 * 16 = 256 := rfl
  simp only [octets_eq, width, toWord, Nat.reduceDiv]
  exact Numeral.flatMap_positions hsquare 16 word.toNat

theorem reverseLabels_v4 (word : BitVec 32) : (v4 word).reverseLabels = (v4 word).octets.reverse.map Numeral.text := by
  rw [reverseLabels, List.map_map]
  rfl

theorem reverseLabels_v6 (word : BitVec 128) :
    (v6 word).reverseLabels = (nibbles word).reverse.map fun d => String.ofList [Numeral.digit d] := by
  have hlabels : (v6 word).reverseLabels = ((nibbles word).reverse.map (Numeral.render 16)).map String.ofList := by
    rw [← flatMap_octets, List.reverse_flatMap, List.map_flatMap]
    rfl
  rw [hlabels, List.map_map]
  refine List.map_congr_left fun d hd => ?_
  rw [Function.comp_apply, Numeral.render_of_lt (lt_of_mem_nibbles (List.mem_reverse.mp hd))]

def zoneLabels : Address → List String
  | v4 _ => ["in-addr", "arpa", ""]
  | v6 _ => ["ip6", "arpa", ""]

theorem reverseName_eq_join (a : Address) : a.reverseName = Text.join "." (a.reverseLabels ++ a.zoneLabels) := by
  have hzone : Text.join "." [a.reverseZone] = Text.join "." a.zoneLabels := by
    cases a with
    | v4 word => exact (by decide : Text.join "." ["in-addr.arpa."] = Text.join "." ["in-addr", "arpa", ""])
    | v6 word => exact (by decide : Text.join "." ["ip6.arpa."] = Text.join "." ["ip6", "arpa", ""])
  have hne : a.zoneLabels ≠ [] := by
    cases a <;> exact List.cons_ne_nil _ _
  exact Text.join_append_congr (List.cons_ne_nil _ _) hne hzone a.reverseLabels

theorem point_notMem_reverseLabels {label : String} (h : label ∈ a.reverseLabels ++ a.zoneLabels) : '.' ∉ label.toList := by
  rcases List.mem_append.mp h with hlabel | hzone
  · obtain ⟨cs, hcs, rfl⟩ := List.mem_map.mp hlabel
    rw [String.toList_ofList]
    cases a with
    | v4 word =>
      obtain ⟨o, -, rfl⟩ := List.mem_map.mp hcs
      exact Numeral.notMem_render (by decide) (by decide) (by decide)
    | v6 word =>
      obtain ⟨o, -, hcs⟩ := List.mem_flatMap.mp hcs
      simp only [List.mem_cons, List.not_mem_nil, or_false] at hcs
      rcases hcs with rfl | rfl <;> exact Numeral.notMem_render (by decide) (by decide) (by decide)
  · have hzones : ∀ label ∈ ["in-addr", "arpa", "", "ip6"], '.' ∉ label.toList := by decide
    apply hzones
    cases a <;> simp [zoneLabels] at hzone ⊢ <;> tauto

theorem splitAll_reverseName (a : Address) :
    Text.splitAll '.' a.reverseName.toList = (a.reverseLabels ++ a.zoneLabels).map String.toList := by
  have hpoint : ".".toList = ['.'] := by decide
  rw [reverseName_eq_join, Text.splitAll_join hpoint]
  · cases a <;> simp [zoneLabels]
  · exact fun label hlabel => point_notMem_reverseLabels hlabel

theorem length_reverseLabels_v4 (word : BitVec 32) : (v4 word).reverseLabels.length = 4 := by
  rw [reverseLabels_v4, List.length_map, List.length_reverse]
  rfl

theorem length_reverseLabels_v6 (word : BitVec 128) : (v6 word).reverseLabels.length = 32 := by
  rw [reverseLabels_v6, List.length_map, List.length_reverse, nibbles, List.length_map, List.length_range]

def readNibble? (label : String) : Option Nat :=
  match label.toList with
  | [c] => Numeral.digitValue? 16 c
  | _ => none

/-- The address of which a name has the labels, the lowest part first. -/
def ofReverseName? (name : String) : Option Address :=
  let labels := (Text.splitAll '.' name.toList).map String.ofList
  if labels.drop 4 = ["in-addr", "arpa", ""] then
    match (labels.take 4).reverse.mapM fun label => readOctet? label.toList with
    | some [a, b, c, d] => some (v4 (ofOctets a b c d))
    | _ => none
  else if labels.drop 32 = ["ip6", "arpa", ""] then
    ((labels.take 32).reverse.mapM readNibble?).map fun ds => v6 (BitVec.ofNat 128 (Numeral.ofDigits 16 ds))
  else none

theorem ofReverseName?_reverseName (a : Address) : ofReverseName? a.reverseName = some a := by
  have hlabels : (Text.splitAll '.' a.reverseName.toList).map String.ofList = a.reverseLabels ++ a.zoneLabels := by
    rw [splitAll_reverseName, List.map_map]
    simp [Function.comp_def, String.ofList_toList]
  unfold ofReverseName?
  simp only [hlabels]
  cases a with
  | v4 word =>
    have hlength := length_reverseLabels_v4 word
    have hzone : (v4 word).zoneLabels = ["in-addr", "arpa", ""] := rfl
    obtain ⟨a, b, c, d, hoctets⟩ : ∃ a b c d, (v4 word).octets = [a, b, c, d] := ⟨_, _, _, _, rfl⟩
    have hread : (v4 word).reverseLabels.reverse.mapM (fun label => readOctet? label.toList) = some [a, b, c, d] := by
      rw [reverseLabels_v4, ← List.map_reverse, List.reverse_reverse, ← hoctets]
      apply Text.mapM_map_eq_some
      intro o ho
      rw [Numeral.text, String.toList_ofList]
      exact readOctet?_render (lt_of_mem_octets ho)
    rw [List.drop_left' hlength, List.take_left' hlength, if_pos hzone, hread]
    exact congrArg (some ∘ v4) (ofOctets_octets hoctets)
  | v6 word =>
    have hlength := length_reverseLabels_v6 word
    have hzone : (v6 word).zoneLabels = ["ip6", "arpa", ""] := rfl
    have hread : (v6 word).reverseLabels.reverse.mapM readNibble? = some (nibbles word) := by
      rw [reverseLabels_v6, ← List.map_reverse, List.reverse_reverse]
      apply Text.mapM_map_eq_some
      intro d hd
      rw [readNibble?, String.toList_ofList]
      exact Numeral.digitValue?_digit (lt_of_mem_nibbles hd) (by decide)
    have hother : ((v6 word).reverseLabels ++ (v6 word).zoneLabels).drop 4 ≠ ["in-addr", "arpa", ""] := by
      intro h
      have hcount := congrArg List.length h
      rw [List.length_drop, List.length_append, hlength] at hcount
      exact absurd hcount (by decide : 32 + 3 - 4 ≠ 3)
    rw [if_neg hother, List.drop_left' hlength, List.take_left' hlength, if_pos hzone, hread, Option.map_some, ofDigits_nibbles,
      BitVec.ofNat_toNat, BitVec.setWidth_eq]

theorem reverseName_inj : a.reverseName = b.reverseName ↔ a = b := by
  constructor
  · intro h
    have hread := ofReverseName?_reverseName a
    rw [h, ofReverseName?_reverseName, Option.some.injEq] at hread
    exact hread.symm
  · exact congrArg reverseName

/-- The reverse name of an IPv4 address has its octets in decimal as labels, from the last to the first, and that of an IPv6 address
has 32 single digits in base 16, which read backwards are its nibbles from the highest. The address is read from the name again, so
that different addresses have different names. -/
theorem reverseName_spells_backwards :
    (∀ word : BitVec 32, ∃ a b c d, a < 256 ∧ b < 256 ∧ c < 256 ∧ d < 256 ∧
      word.toNat = ((a * 256 + b) * 256 + c) * 256 + d ∧
      (v4 word).reverseName = ".".intercalate ([d, c, b, a].map Numeral.text ++ ["in-addr.arpa."])) ∧
    (∀ word : BitVec 128, ∃ labels : List String, labels.length = 32 ∧
      (v6 word).reverseName = ".".intercalate (labels ++ ["ip6.arpa."]) ∧
      (∀ label ∈ labels, ∃ c ∈ "0123456789abcdef".toList, label = String.ofList [c]) ∧
      labels.reverse = (List.range 32).map fun i => String.ofList [Numeral.digit (word.toNat / 16 ^ (31 - i) % 16)]) ∧
    (∀ a, ofReverseName? a.reverseName = some a) ∧
    ∀ a b : Address, a.reverseName = b.reverseName ↔ a = b := by
  refine ⟨fun word => ?_, fun word => ?_, ofReverseName?_reverseName, fun a b => reverseName_inj⟩
  · obtain ⟨a, b, c, d, hoctets⟩ : ∃ a b c d, (v4 word).octets = [a, b, c, d] := ⟨_, _, _, _, rfl⟩
    have hlt : ∀ o ∈ [a, b, c, d], o < 256 := fun o ho => lt_of_mem_octets (hoctets ▸ ho)
    simp only [List.forall_mem_cons] at hlt
    obtain ⟨ha, hb, hc, hd, -⟩ := hlt
    refine ⟨a, b, c, d, ha, hb, hc, hd, ?_, ?_⟩
    · rw [← ofOctets_octets hoctets, ofOctets, BitVec.toNat_ofNat]
      omega
    · rw [← Text.join_eq_intercalate, reverseName, reverseLabels_v4, hoctets]
      rfl
  · refine ⟨(v6 word).reverseLabels, length_reverseLabels_v6 word, ?_, fun label hlabel => ?_, ?_⟩
    · rw [← Text.join_eq_intercalate]
      rfl
    · rw [reverseLabels_v6] at hlabel
      obtain ⟨d, hd, rfl⟩ := List.mem_map.mp hlabel
      have hdigits : ∀ d < 16, Numeral.digit d ∈ "0123456789abcdef".toList := by decide
      exact ⟨_, hdigits d (lt_of_mem_nibbles (List.mem_reverse.mp hd)), rfl⟩
    · rw [reverseLabels_v6, ← List.map_reverse, List.reverse_reverse, nibbles, List.map_map]
      rfl

end AssetGraph.Address

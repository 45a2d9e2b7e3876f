import AssetGraph.Address.Endpoint
import AssetGraph.Proofs.Address.Notation

/-!
# Characters of addresses with a port

An address with a port has nothing but the characters of addresses, the brackets around an IPv6 address and the percent sign before its
zone.
-/
namespace AssetGraph.Address

variable {c : Char} {cs : List Char} {s : String} {bound n : Nat}

def IsEndpointChar (c : Char) : Prop := IsAddressChar c ∨ c ∈ ['[', ']', '%']

theorem isAddressChar_of_isSome_readBelow? (h : (readBelow? bound cs).isSome = true) (hc : c ∈ cs) : IsAddressChar c := by
  obtain ⟨n, hn⟩ := Option.isSome_iff_exists.mp h
  have hread := (Option.filter_eq_some_iff.mp hn).1
  exact .inr (.inr (Numeral.isSome_digitValue?_of_le (by decide) (Numeral.isSome_digitValue?_of_read? hread hc)))

theorem isEndpointChar_of_isBracketed (h : isBracketed cs = true) (hc : c ∈ cs) : IsEndpointChar c := by
  unfold isBracketed at h
  split at h
  · rename_i address zone hsplit
    obtain ⟨haddress, hzone⟩ := Bool.and_eq_true_iff.mp h
    obtain ⟨word, hword⟩ := Option.isSome_iff_exists.mp haddress
    rw [(Text.splitFirst?_eq_some_iff.mp hsplit).1, List.mem_append, List.mem_cons] at hc
    rcases hc with hc | rfl | hc
    · exact .inl (isAddressChar_of_parseV6? hword hc)
    · exact .inr (by simp)
    · exact .inl (isAddressChar_of_isSome_readBelow? hzone hc)
  · obtain ⟨word, hword⟩ := Option.isSome_iff_exists.mp h
    exact .inl (isAddressChar_of_parseV6? hword hc)

theorem isEndpointChar_of_isEndpoint (h : isEndpoint s = true) (hc : c ∈ s.toList) : IsEndpointChar c := by
  unfold isEndpoint at h
  split at h
  · rename_i inner hbracket
    split at h
    · rename_i inside port hsplit
      obtain ⟨hinside, hport⟩ := Bool.and_eq_true_iff.mp h
      rw [hbracket, (Text.splitFirst?_eq_some_iff.mp hsplit).1] at hc
      simp only [List.mem_cons, List.mem_append] at hc
      rcases hc with rfl | hc | rfl | rfl | hc
      · exact .inr (by simp)
      · exact isEndpointChar_of_isBracketed hinside hc
      · exact .inr (by simp)
      · exact .inl (.inl rfl)
      · exact .inl (isAddressChar_of_isSome_readBelow? hport hc)
    · cases h
  · split at h
    · rename_i address port hsplit
      obtain ⟨haddress, hport⟩ := Bool.and_eq_true_iff.mp h
      obtain ⟨word, hword⟩ := Option.isSome_iff_exists.mp haddress
      rw [(Text.splitFirst?_eq_some_iff.mp hsplit).1, List.mem_append, List.mem_cons] at hc
      rcases hc with hc | rfl | hc
      · exact .inl (isAddressChar_of_parseV4? hword hc)
      · exact .inl (.inl rfl)
      · exact .inl (isAddressChar_of_isSome_readBelow? hport hc)
    · cases h

theorem IsEndpointChar.visible (h : IsEndpointChar c) : 0x21 ≤ c.toNat ∧ c.toNat ≤ 0x7E := by
  rcases h with (rfl | rfl | hdigit) | hmark
  · decide
  · decide
  · by_contra hhidden
    have hnone : Numeral.digitValue? 16 c = none := by
      rw [Numeral.digitValue?, if_neg (by omega), if_neg (by omega), if_neg (by omega)]
      rfl
    rw [hnone] at hdigit
    cases hdigit
  · have hmarks : ['[', ']', '%'].all (fun d => 0x21 ≤ d.toNat ∧ d.toNat ≤ 0x7E) = true := by decide
    exact of_decide_eq_true (List.all_eq_true.mp hmarks c hmark)

end AssetGraph.Address

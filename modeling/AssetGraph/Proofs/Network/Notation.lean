import AssetGraph.Network.Notation
import AssetGraph.Proofs.Address.Notation

/-!
# Networks read as they were written

Every network is read as it was written. A text that is read as a network is an address, a slash and a length, with blanks
around it; another address of the same network in that place makes the same network, and no other address does.
-/
namespace AssetGraph

def Text.IsBlank (s : String) : Prop := ∀ c ∈ s.toList, isBlank c = true

theorem Numeral.isBlank_eq_false {base : Nat} {c : Char} (h : (digitValue? base c).isSome = true) :
    Text.isBlank c = false := by
  obtain ⟨d, hd⟩ := Option.isSome_iff_exists.mp h
  have hrange : 48 ≤ c.toNat ∧ c.toNat ≤ 57 ∨ 97 ≤ c.toNat ∧ c.toNat ≤ 102 ∨ 65 ≤ c.toNat ∧ c.toNat ≤ 70 := by
    have hvalue := (Option.filter_eq_some_iff.mp hd).1
    split at hvalue
    · exact .inl ‹_›
    · split at hvalue
      · exact .inr (.inl ‹_›)
      · split at hvalue
        · exact .inr (.inr ‹_›)
        · cases hvalue
  simp only [Text.isBlank, Bool.or_eq_false_iff, Bool.and_eq_false_iff, decide_eq_false_iff_not, beq_eq_false_iff_ne]
  omega

theorem Address.IsAddressChar.isBlank_eq_false {c : Char} (h : IsAddressChar c) : Text.isBlank c = false := by
  rcases h with rfl | rfl | hdigit
  · decide
  · decide
  · exact Numeral.isBlank_eq_false hdigit

theorem Address.slash_notMem_of_parse? {s : String} {a : Address} (h : parse? s = some a) : '/' ∉ s.toList := by
  intro hslash
  rcases isAddressChar_of_parse? h hslash with hcolon | hpoint | hdigit
  · exact absurd hcolon (by decide)
  · exact absurd hpoint (by decide)
  · exact absurd hdigit (by decide)

theorem Numeral.isBlank_eq_false_of_readUnsigned? {bound k : Nat} {cs : List Char} (h : readUnsigned? bound cs = some k)
    {c : Char} (hc : c ∈ cs) : Text.isBlank c = false := by
  rcases eq_plus_or_isSome_of_readUnsigned? h hc with rfl | hdigit
  · decide
  · exact Numeral.isBlank_eq_false hdigit

namespace Network

variable {n : Network} {a : Address} {k : Nat} {s t : String}

theorem of?_eq_some_iff : of? a k = some n ↔ k = n.length ∧ a ∈ n.interval := by
  constructor
  · intro h
    rw [of?] at h
    split at h
    · cases h
      exact ⟨rfl, mem_interval_of_mask rfl⟩
    · cases h
  · rintro ⟨rfl, ha⟩
    have hwidth : n.length ≤ a.width := Address.width_eq_of_isV4_eq ha.family ▸ n.length_le
    obtain ⟨found, hfound, hlength, hmem⟩ := exists_of? hwidth
    rw [hfound, eq_of_mem_interval hlength hmem ha]

theorem make_eq_ok_iff : make a k = .ok n ↔ k = n.length ∧ a ∈ n.interval := by
  rw [← of?_eq_some_iff, make]
  split
  · rename_i found hfound
    rw [hfound, Except.ok.injEq, Option.some.injEq]
  · rename_i hnone
    simp [hnone]

theorem parse_eq_make {address length : String} (htrim : Text.trim s.toList = address.toList ++ '/' :: length.toList)
    (haddress : Address.parse? address = some a) (hlength : Numeral.readUnsigned? 256 length.toList = some k) :
    parse s = make a k := by
  rw [parse, htrim, Text.splitFirst?_append (Address.slash_notMem_of_parse? haddress)]
  dsimp only
  rw [String.ofList_toList, haddress, hlength]

/-- A text is read as a network when, blanks around it apart, it is an address of the network, a slash and its length. -/
theorem parse_eq_ok_iff : parse s = .ok n ↔
    ∃ address length : String, Text.trim s.toList = address.toList ++ '/' :: length.toList ∧
      (∃ a ∈ n.interval, Address.parse? address = some a) ∧
      Numeral.readUnsigned? 256 length.toList = some n.length := by
  constructor
  · intro h
    rw [parse] at h
    split at h
    · cases h
    · rename_i address length hcut
      split at h
      · rename_i a k haddress hlength
        obtain ⟨rfl, ha⟩ := make_eq_ok_iff.mp h
        refine ⟨String.ofList address, String.ofList length, ?_, ⟨a, ha, haddress⟩, ?_⟩
        · rw [String.toList_ofList, String.toList_ofList]
          exact (Text.eq_of_splitFirst? hcut).1
        · rw [String.toList_ofList]
          exact hlength
      · cases h
  · rintro ⟨address, length, htrim, ⟨a, ha, haddress⟩, hlength⟩
    rw [parse_eq_make htrim haddress hlength, make_eq_ok_iff]
    exact ⟨rfl, ha⟩

theorem trim_slashed {address length : String} (haddress : Address.parse? address = some a)
    (hlength : Numeral.readUnsigned? 256 length.toList = some k) :
    Text.trim (address ++ "/" ++ length).toList = address.toList ++ '/' :: length.toList := by
  have hslash : (address ++ "/" ++ length).toList = address.toList ++ '/' :: length.toList := by
    simp [String.toList_append]
  rw [hslash]
  apply Text.trim_eq_self
  intro c hc
  rw [List.mem_append, List.mem_cons] at hc
  rcases hc with hc | rfl | hc
  · exact (Address.isAddressChar_of_parse? haddress hc).isBlank_eq_false
  · decide
  · exact Numeral.isBlank_eq_false_of_readUnsigned? hlength hc

theorem parse_render (n : Network) : parse n.render = .ok n := by
  have hbound : n.length < 256 := by
    have hlength := n.length_le
    have hwidth := n.base.width_le
    omega
  have haddress := Address.parse?_render n.base
  have hlength : Numeral.readUnsigned? 256 (Numeral.text n.length).toList = some n.length := by
    rw [Numeral.text, String.toList_ofList]
    exact Numeral.readUnsigned?_render hbound
  exact parse_eq_ok_iff.mpr ⟨_, _, trim_slashed haddress hlength, ⟨_, n.base_mem_interval, haddress⟩, hlength⟩

theorem parse_surrounded {before after : String} (hbefore : Text.IsBlank before) (hafter : Text.IsBlank after) :
    parse (before ++ t ++ after) = .ok n ↔ parse t = .ok n := by
  rw [parse_eq_ok_iff, parse_eq_ok_iff, String.toList_append, String.toList_append, Text.trim_surrounded hbefore hafter]

/-- In the place of its address every other address of a network makes the same network, and no other does. -/
theorem parse_slashed_iff {address length : String} (haddress : Address.parse? address = some a)
    (hlength : Numeral.readUnsigned? 256 length.toList = some n.length) :
    parse (address ++ "/" ++ length) = .ok n ↔ a ∈ n.interval := by
  rw [parse_eq_make (trim_slashed haddress hlength) haddress hlength, make_eq_ok_iff]
  exact and_iff_right rfl

/-- A text that is read as a network is written with blanks around an address of it, a slash and its length. -/
theorem exists_slashed (h : parse t = .ok n) :
    ∃ before address length after, Text.IsBlank before ∧ Text.IsBlank after ∧
      t = before ++ (address ++ "/" ++ length) ++ after ∧
      (∃ a ∈ n.interval, Address.parse? address = some a) ∧
      Numeral.readUnsigned? 256 length.toList = some n.length := by
  obtain ⟨address, length, htrim, haddress, hlength⟩ := parse_eq_ok_iff.mp h
  obtain ⟨before, after, htext, hbefore, hafter⟩ := Text.exists_surrounding t.toList
  refine ⟨String.ofList before, address, length, String.ofList after, ?_, ?_, ?_, haddress, hlength⟩
  · rwa [Text.IsBlank, String.toList_ofList]
  · rwa [Text.IsBlank, String.toList_ofList]
  · rw [htrim] at htext
    rw [← String.toList_inj, htext]
    simp [String.toList_append]

/-- Networks are read as they were written, and so are written alike only when they are the same. What is read as a network is
an address of it, a slash and its length: blanks around them make no difference, and neither does which address of the network
it is. -/
theorem written_and_read :
    (∀ n : Network, parse n.render = .ok n) ∧
    (∀ t n, parse t = .ok n → parse n.render = parse t) ∧
    (∀ before t after, Text.IsBlank before → Text.IsBlank after →
      ∀ n, parse (before ++ t ++ after) = .ok n ↔ parse t = .ok n) ∧
    (∀ t n, parse t = .ok n → ∃ before address length after, Text.IsBlank before ∧ Text.IsBlank after ∧
      t = before ++ (address ++ "/" ++ length) ++ after ∧ (∃ a ∈ n.interval, Address.parse? address = some a) ∧
      ∀ other a, Address.parse? other = some a →
        (parse (before ++ (other ++ "/" ++ length) ++ after) = .ok n ↔ a ∈ n.interval)) ∧
    ∀ s t m n, parse s = .ok m → parse t = .ok n → (m.render = n.render ↔ m = n) := by
  refine ⟨parse_render, fun t n h => (parse_render n).trans h.symm,
    fun _ _ _ hbefore hafter _ => parse_surrounded hbefore hafter, fun t n h => ?_,
    fun s t m n _ _ => ⟨fun h => ?_, congrArg render⟩⟩
  · obtain ⟨before, address, length, after, hbefore, hafter, htext, haddress, hlength⟩ := exists_slashed h
    refine ⟨before, address, length, after, hbefore, hafter, htext, haddress, fun other a hother => ?_⟩
    rw [parse_surrounded hbefore hafter, parse_slashed_iff hother hlength]
  · have hread := parse_render m
    rw [h, parse_render n, Except.ok.injEq] at hread
    exact hread.symm

/-- An IPv4-mapped network from two spellings of its addresses, one of them with capitals, blanks and a sign. -/
theorem written_and_read_mapped :
    let n : Network := ⟨.mapped 0xC0000200#32, 120, by decide, by decide⟩
    parse "\t::FFFF:192.0.2.77/+120 " = .ok n ∧ parse "::ffff:c000:2ff/120" = .ok n ∧ parse n.render = .ok n := by
  intro n
  obtain ⟨-, hagain, -, -, -⟩ := written_and_read
  have hdotted : parse "\t::FFFF:192.0.2.77/+120 " = .ok n := by decide +kernel
  exact ⟨hdotted, by decide +kernel, (hagain _ n hdotted).trans hdotted⟩

end Network
end AssetGraph

import AssetGraph.Address.Properties
import AssetGraph.Proofs.Address.Notation
import AssetGraph.Proofs.Network.Notation
import Mathlib.Algebra.Group.Nat.Defs

/-!
# Properties of an address by the networks it lies in

Each flag of an address says in which networks the address lies, where an IPv4-mapped address lies where the IPv4 address does that it
carries. An octet and a network both tell the number that some first bits of the address make.
-/
namespace AssetGraph.Address

variable {a base : Address} {text : String} {length shorter i : Nat}

/-- The number that the first bits of an address make. -/
def leading (a : Address) (length : Nat) : Nat := a.toWord.toNat / 2 ^ (a.width - length)

theorem leading_width (a : Address) : a.leading a.width = a.toWord.toNat := by
  rw [leading, Nat.sub_self, Nat.pow_zero, Nat.div_one]

theorem leading_of_le (hshorter : shorter ≤ length) (hlength : length ≤ a.width) :
    a.leading shorter = a.leading length / 2 ^ (length - shorter) := by
  have hplace : a.width - shorter = a.width - length + (length - shorter) := by omega
  rw [leading, leading, Nat.div_div_eq_div_mul, ← Nat.pow_add, hplace]

theorem leading_lt (hlength : length ≤ a.width) : a.leading length < 2 ^ length := by
  apply Nat.div_lt_of_lt_mul
  rw [← Nat.pow_add, Nat.sub_add_cancel hlength]
  exact a.toWord_lt

theorem octet_eq (hi : 8 * (i + 1) ≤ length) (hlength : length ≤ a.width) :
    a.octet i = a.leading length / 2 ^ (length - 8 * (i + 1)) % 256 := by
  have hlast : i < a.width / 8 := by omega
  have hplace : a.width - 8 * (i + 1) = 8 * (a.width / 8 - 1 - i) := by
    cases a with
    | v4 word => rw [width] at *; omega
    | v6 word => rw [width] at *; omega
  rw [← leading_of_le hi hlength, octet, octets_eq, List.getD_eq_getElem?_getD, List.getElem?_map,
    List.getElem?_range hlast, Option.map_some, Option.getD_some, leading, hplace, Nat.pow_mul]

def LiesIn (a : Address) (text : String) : Prop := ∃ n, Network.parse text = .ok n ∧ n.contains a = true

/-- An address lies in the network of another when it is of its family and its first bits make the same number. -/
theorem liesIn_iff (base : Address) (length number : Nat) (hlength : length ≤ base.width)
    (hnumber : base.leading length = number) (h : Network.parse text = Network.make base length) :
    a.LiesIn text ↔ a.unmap.isV4 = base.isV4 ∧ a.unmap.leading length = number := by
  obtain ⟨n, -, rfl, hbase⟩ := Network.exists_of? hlength
  have hread : Network.parse text = .ok n := h.trans (Network.make_eq_ok_iff.mpr ⟨rfl, hbase⟩)
  have hmask : a.LiesIn text ↔ a.unmap.mask n.length = base.mask n.length := by
    rw [LiesIn, hread, Network.mask_of_mem_interval hbase, ← Network.contains_iff]
    simp
  have hdivided (hfamily : a.unmap.isV4 = base.isV4) :
      a.unmap.mask n.length = base.mask n.length ↔ a.unmap.leading n.length = base.leading n.length := by
    rw [mask_eq_mask_iff_div hfamily, leading, leading, width_eq_of_isV4_eq hfamily]
  rw [hmask, ← hnumber]
  constructor
  · intro hsame
    have hfamily := isV4_eq_of_mask_eq hsame
    exact ⟨hfamily, (hdivided hfamily).mp hsame⟩
  · rintro ⟨hfamily, hleading⟩
    exact (hdivided hfamily).mpr hleading

/-- What the flags of an IPv4 address say about the numbers that its first bits make. -/
structure FlagsV4 (p : Properties) (first : Nat → Nat) : Prop where
  unspecified : p.unspecified = true ↔ first 32 = 0
  loopback : p.loopback = true ↔ first 8 = 127
  isPrivate : p.isPrivate = true ↔ first 8 = 10 ∨ first 12 = 0xAC1 ∨ first 16 = 0xC0A8
  multicast : p.multicast = true ↔ first 4 = 0xE
  linkLocalUnicast : p.linkLocalUnicast = true ↔ first 16 = 0xA9FE
  linkLocalMulticast : p.linkLocalMulticast = true ↔ first 24 = 0xE00000
  interfaceLocalMulticast : p.interfaceLocalMulticast = false

theorem flags_v4 (word : BitVec 32) : FlagsV4 (propertiesV4 word) (v4 word).leading := by
  have hwidth : 24 ≤ (v4 word).width := (by decide : 24 ≤ 32)
  have hnumber : (v4 word).leading 32 = word.toNat := (v4 word).leading_width.trans (BitVec.toNat_setWidth_of_le (by decide))
  have hfirst : (v4 word).octet 0 = (v4 word).leading 24 / 2 ^ 16 % 256 := octet_eq (by decide) hwidth
  have hsecond : (v4 word).octet 1 = (v4 word).leading 24 / 2 ^ 8 % 256 := octet_eq (by decide) hwidth
  have hthird : (v4 word).octet 2 = (v4 word).leading 24 % 256 := (octet_eq (by decide) hwidth).trans (by simp)
  have hlt : (v4 word).leading 24 < 2 ^ 24 := leading_lt hwidth
  have h4 : (v4 word).leading 4 = (v4 word).leading 24 / 2 ^ 20 := leading_of_le (by decide) hwidth
  have h8 : (v4 word).leading 8 = (v4 word).leading 24 / 2 ^ 16 := leading_of_le (by decide) hwidth
  have h12 : (v4 word).leading 12 = (v4 word).leading 24 / 2 ^ 12 := leading_of_le (by decide) hwidth
  have h16 : (v4 word).leading 16 = (v4 word).leading 24 / 2 ^ 8 := leading_of_le (by decide) hwidth
  refine ⟨beq_iff_eq.trans (BitVec.toNat_eq.trans (Eq.congr_left hnumber.symm)), ?_, ?_, ?_, ?_, ?_, rfl⟩
  all_goals
    simp only [propertiesV4, Bool.or_eq_true, Bool.and_eq_true, beq_iff_eq, hfirst, hsecond, hthird, h4, h8, h12, h16]
    omega

structure FlagsV6 (p : Properties) (first : Nat → Nat) : Prop where
  unspecified : p.unspecified = true ↔ first 128 = 0
  loopback : p.loopback = true ↔ first 128 = 1
  isPrivate : p.isPrivate = true ↔ first 7 = 0x7E
  multicast : p.multicast = true ↔ first 8 = 0xFF
  linkLocalUnicast : p.linkLocalUnicast = true ↔ first 10 = 0x3FA
  linkLocalMulticast : p.linkLocalMulticast = true ↔ first 8 = 0xFF ∧ first 16 % 16 = 2
  interfaceLocalMulticast : p.interfaceLocalMulticast = true ↔ first 8 = 0xFF ∧ first 16 % 16 = 1

theorem flags_v6 (word : BitVec 128) : FlagsV6 (propertiesV6 word) (v6 word).leading := by
  have hwidth : 16 ≤ (v6 word).width := (by decide : 16 ≤ 128)
  have hnumber (value : BitVec 128) : (word == value) = true ↔ (v6 word).leading 128 = value.toNat :=
    beq_iff_eq.trans (BitVec.toNat_eq.trans (Eq.congr_left (v6 word).leading_width.symm))
  have hfirst : (v6 word).octet 0 = (v6 word).leading 16 / 2 ^ 8 % 256 := octet_eq (by decide) hwidth
  have hsecond : (v6 word).octet 1 = (v6 word).leading 16 % 256 := (octet_eq (by decide) hwidth).trans (by simp)
  have hlt : (v6 word).leading 16 < 2 ^ 16 := leading_lt hwidth
  have h7 : (v6 word).leading 7 = (v6 word).leading 16 / 2 ^ 9 := leading_of_le (by decide) hwidth
  have h8 : (v6 word).leading 8 = (v6 word).leading 16 / 2 ^ 8 := leading_of_le (by decide) hwidth
  have h10 : (v6 word).leading 10 = (v6 word).leading 16 / 2 ^ 6 := leading_of_le (by decide) hwidth
  refine ⟨hnumber 0, hnumber 1, ?_, ?_, ?_, ?_, ?_⟩
  all_goals
    simp only [propertiesV6, Bool.and_eq_true, beq_iff_eq, hfirst, hsecond, h7, h8, h10]
    omega

/-- The networks that the flags name, each by its text with its first address and its length. -/
def namedNetworks : List (String × Address × Nat) :=
  [("0.0.0.0/32", v4 0, 32), ("127.0.0.0/8", v4 0x7F000000, 8), ("10.0.0.0/8", v4 0x0A000000, 8),
    ("172.16.0.0/12", v4 0xAC100000, 12), ("192.168.0.0/16", v4 0xC0A80000, 16), ("224.0.0.0/4", v4 0xE0000000, 4),
    ("169.254.0.0/16", v4 0xA9FE0000, 16), ("224.0.0.0/24", v4 0xE0000000, 24), ("::/128", v6 0, 128), ("::1/128", v6 1, 128),
    ("fc00::/7", v6 0xFC000000000000000000000000000000, 7), ("ff00::/8", v6 0xFF000000000000000000000000000000, 8),
    ("fe80::/10", v6 0xFE800000000000000000000000000000, 10)]

theorem parse_namedNetworks :
    ∀ n ∈ namedNetworks, n.2.2 ≤ n.2.1.width ∧ Network.parse n.1 = Network.make n.2.1 n.2.2 := by decide +kernel

theorem liesIn_named_iff (base : Address) (length number : Nat) (h : (text, base, length) ∈ namedNetworks)
    (hnumber : base.leading length = number) :
    a.LiesIn text ↔ a.unmap.isV4 = base.isV4 ∧ a.unmap.leading length = number :=
  liesIn_iff base length number (parse_namedNetworks _ h).1 hnumber (parse_namedNetworks _ h).2

theorem unspecified_iff (a : Address) :
    a.properties.unspecified = true ↔ a.LiesIn "0.0.0.0/32" ∨ a.LiesIn "::/128" := by
  rw [liesIn_named_iff (.v4 0) 32 0 (by simp [namedNetworks]) rfl,
    liesIn_named_iff (.v6 0) 128 0 (by simp [namedNetworks]) rfl, properties]
  cases a.unmap with
  | v4 word => simpa [isV4] using (flags_v4 word).unspecified
  | v6 word => simpa [isV4] using (flags_v6 word).unspecified

theorem loopback_iff (a : Address) : a.properties.loopback = true ↔ a.LiesIn "127.0.0.0/8" ∨ a.LiesIn "::1/128" := by
  rw [liesIn_named_iff (.v4 0x7F000000) 8 127 (by simp [namedNetworks]) rfl,
    liesIn_named_iff (.v6 1) 128 1 (by simp [namedNetworks]) rfl, properties]
  cases a.unmap with
  | v4 word => simpa [isV4] using (flags_v4 word).loopback
  | v6 word => simpa [isV4] using (flags_v6 word).loopback

theorem isPrivate_iff (a : Address) :
    a.properties.isPrivate = true ↔
      a.LiesIn "10.0.0.0/8" ∨ a.LiesIn "172.16.0.0/12" ∨ a.LiesIn "192.168.0.0/16" ∨ a.LiesIn "fc00::/7" := by
  rw [liesIn_named_iff (.v4 0x0A000000) 8 10 (by simp [namedNetworks]) rfl,
    liesIn_named_iff (.v4 0xAC100000) 12 0xAC1 (by simp [namedNetworks]) rfl,
    liesIn_named_iff (.v4 0xC0A80000) 16 0xC0A8 (by simp [namedNetworks]) rfl,
    liesIn_named_iff (.v6 0xFC000000000000000000000000000000) 7 0x7E (by simp [namedNetworks]) rfl, properties]
  cases a.unmap with
  | v4 word => simpa [isV4] using (flags_v4 word).isPrivate
  | v6 word => simpa [isV4] using (flags_v6 word).isPrivate

theorem multicast_iff (a : Address) : a.properties.multicast = true ↔ a.LiesIn "224.0.0.0/4" ∨ a.LiesIn "ff00::/8" := by
  rw [liesIn_named_iff (.v4 0xE0000000) 4 0xE (by simp [namedNetworks]) rfl,
    liesIn_named_iff (.v6 0xFF000000000000000000000000000000) 8 0xFF (by simp [namedNetworks]) rfl, properties]
  cases a.unmap with
  | v4 word => simpa [isV4] using (flags_v4 word).multicast
  | v6 word => simpa [isV4] using (flags_v6 word).multicast

theorem linkLocalUnicast_iff (a : Address) :
    a.properties.linkLocalUnicast = true ↔ a.LiesIn "169.254.0.0/16" ∨ a.LiesIn "fe80::/10" := by
  rw [liesIn_named_iff (.v4 0xA9FE0000) 16 0xA9FE (by simp [namedNetworks]) rfl,
    liesIn_named_iff (.v6 0xFE800000000000000000000000000000) 10 0x3FA (by simp [namedNetworks]) rfl, properties]
  cases a.unmap with
  | v4 word => simpa [isV4] using (flags_v4 word).linkLocalUnicast
  | v6 word => simpa [isV4] using (flags_v6 word).linkLocalUnicast

theorem sixteen_le_width (a : Address) : 16 ≤ a.width := by
  cases a with
  | v4 word => exact (by decide : 16 ≤ 32)
  | v6 word => exact (by decide : 16 ≤ 128)

/-- The text of the networks that hold the IPv6 groups of one scope, by the digit before that of the scope. -/
def scopeText (scope other : Nat) : String := "ff" ++ String.ofList [Numeral.digit other, Numeral.digit scope] ++ "::/16"

def scopeBase (scope other : Nat) : Address := v6 (BitVec.ofNat 128 ((0xFF00 + 16 * other + scope) * 2 ^ 112))

theorem parse_scopeText :
    ∀ scope < 3, ∀ other < 16, Network.parse (scopeText scope other) = Network.make (scopeBase scope other) 16 := by
  decide +kernel

theorem exists_liesIn_scope_iff {scope : Nat} (hscope : scope < 3) :
    (∃ other < 16, a.LiesIn (scopeText scope other)) ↔
      a.unmap.isV4 = false ∧ a.unmap.leading 8 = 0xFF ∧ a.unmap.leading 16 % 16 = scope := by
  have hnumber (other : Nat) (h : other < 16) : (scopeBase scope other).leading 16 = 0xFF00 + 16 * other + scope := by
    simp only [scopeBase, leading, toWord, width, BitVec.toNat_ofNat]
    omega
  have hlies (other : Nat) (h : other < 16) : a.LiesIn (scopeText scope other) ↔
      a.unmap.isV4 = false ∧ a.unmap.leading 16 = 0xFF00 + 16 * other + scope :=
    liesIn_iff (scopeBase scope other) 16 _ (by decide : 16 ≤ 128) (hnumber other h) (parse_scopeText scope hscope other h)
  have hfirst : a.unmap.leading 8 = a.unmap.leading 16 / 2 ^ 8 := leading_of_le (by decide) a.unmap.sixteen_le_width
  have hlt : a.unmap.leading 16 < 2 ^ 16 := leading_lt a.unmap.sixteen_le_width
  constructor
  · rintro ⟨other, hother, hmem⟩
    obtain ⟨hfamily, hleading⟩ := (hlies other hother).mp hmem
    exact ⟨hfamily, by omega, by omega⟩
  · rintro ⟨hfamily, h8, hlow⟩
    have hother : a.unmap.leading 16 / 16 % 16 < 16 := Nat.mod_lt _ (by decide)
    exact ⟨_, hother, (hlies _ hother).mpr ⟨hfamily, by omega⟩⟩

theorem linkLocalMulticast_iff (a : Address) :
    a.properties.linkLocalMulticast = true ↔ a.LiesIn "224.0.0.0/24" ∨ ∃ other < 16, a.LiesIn (scopeText 2 other) := by
  rw [liesIn_named_iff (.v4 0xE0000000) 24 0xE00000 (by simp [namedNetworks]) rfl,
    exists_liesIn_scope_iff (by decide), properties]
  cases a.unmap with
  | v4 word => simpa [isV4] using (flags_v4 word).linkLocalMulticast
  | v6 word => simpa [isV4] using (flags_v6 word).linkLocalMulticast

theorem interfaceLocalMulticast_iff (a : Address) :
    a.properties.interfaceLocalMulticast = true ↔ ∃ other < 16, a.LiesIn (scopeText 1 other) := by
  rw [exists_liesIn_scope_iff (by decide), properties]
  cases a.unmap with
  | v4 word => simpa [isV4] using (flags_v4 word).interfaceLocalMulticast
  | v6 word => simpa [isV4] using (flags_v6 word).interfaceLocalMulticast

theorem count_kinds_le_one (a : Address) :
    let p := a.properties
    [p.unspecified, p.loopback, p.isPrivate, p.multicast, p.linkLocalUnicast].count true ≤ 1 := by
  rw [properties]
  cases a.unmap with
  | v4 word =>
    obtain ⟨h1, h2, h3, h4, h5, -, -⟩ := flags_v4 word
    have h16 : (v4 word).leading 16 = (v4 word).leading 32 / 2 ^ 16 := leading_of_le (by decide) (Nat.le_refl 32)
    have hfirst (length : Nat) (h : length ≤ 16) : (v4 word).leading length = (v4 word).leading 16 / 2 ^ (16 - length) :=
      leading_of_le h (v4 word).sixteen_le_width
    simp only [List.count_cons, List.count_nil, beq_iff_eq, h1, h2, h3, h4, h5, hfirst 4 (by decide), hfirst 8 (by decide),
      hfirst 12 (by decide)]
    split_ifs <;> omega
  | v6 word =>
    obtain ⟨h1, h2, h3, h4, h5, -, -⟩ := flags_v6 word
    have h10 : (v6 word).leading 10 = (v6 word).leading 128 / 2 ^ 118 := leading_of_le (by decide) (Nat.le_refl 128)
    have hfirst (length : Nat) (h : length ≤ 10) : (v6 word).leading length = (v6 word).leading 10 / 2 ^ (10 - length) :=
      leading_of_le h (by decide : 10 ≤ 128)
    simp only [List.count_cons, List.count_nil, beq_iff_eq, h1, h2, h3, h4, h5, hfirst 7 (by decide), hfirst 8 (by decide)]
    split_ifs <;> omega

theorem multicast_of_scope (a : Address)
    (h : (a.properties.linkLocalMulticast || a.properties.interfaceLocalMulticast) = true) : a.properties.multicast = true := by
  rw [Bool.or_eq_true] at h
  rw [properties] at h ⊢
  cases hunmap : a.unmap with
  | v4 word =>
    rw [hunmap] at h
    have hflags := flags_v4 word
    have h4 : (v4 word).leading 4 = (v4 word).leading 24 / 2 ^ 20 := leading_of_le (by decide) (by decide : 24 ≤ 32)
    rcases h with hlink | hinterface
    · have hfirst := hflags.linkLocalMulticast.mp hlink
      exact hflags.multicast.mpr (by omega)
    · exact absurd hinterface (by simp [hflags.interfaceLocalMulticast])
  | v6 word =>
    rw [hunmap] at h
    have hflags := flags_v6 word
    rcases h with hlink | hinterface
    · exact hflags.multicast.mpr (hflags.linkLocalMulticast.mp hlink).1
    · exact hflags.multicast.mpr (hflags.interfaceLocalMulticast.mp hinterface).1

/-- The flags of an address say in which networks it lies, an IPv4-mapped address where the IPv4 address does that it carries. An
address is of at most one kind, groups of a scope are groups, and an IPv4-mapped address has the properties of the IPv4 address. -/
theorem flags_agree_with_networks (a : Address) :
    let p := a.properties
    (p.unspecified = true ↔ a.LiesIn "0.0.0.0/32" ∨ a.LiesIn "::/128") ∧
    (p.loopback = true ↔ a.LiesIn "127.0.0.0/8" ∨ a.LiesIn "::1/128") ∧
    (p.isPrivate = true ↔
      a.LiesIn "10.0.0.0/8" ∨ a.LiesIn "172.16.0.0/12" ∨ a.LiesIn "192.168.0.0/16" ∨ a.LiesIn "fc00::/7") ∧
    (p.multicast = true ↔ a.LiesIn "224.0.0.0/4" ∨ a.LiesIn "ff00::/8") ∧
    (p.linkLocalUnicast = true ↔ a.LiesIn "169.254.0.0/16" ∨ a.LiesIn "fe80::/10") ∧
    (p.linkLocalMulticast = true ↔ a.LiesIn "224.0.0.0/24" ∨ ∃ other < 16, a.LiesIn (scopeText 2 other)) ∧
    (p.interfaceLocalMulticast = true ↔ ∃ other < 16, a.LiesIn (scopeText 1 other)) ∧
    [p.unspecified, p.loopback, p.isPrivate, p.multicast, p.linkLocalUnicast].count true ≤ 1 ∧
    ((p.linkLocalMulticast || p.interfaceLocalMulticast) = true → p.multicast = true) ∧
    a.unmap.properties = p :=
  ⟨a.unspecified_iff, a.loopback_iff, a.isPrivate_iff, a.multicast_iff, a.linkLocalUnicast_iff, a.linkLocalMulticast_iff,
    a.interfaceLocalMulticast_iff, a.count_kinds_le_one, a.multicast_of_scope, by rw [properties, properties, unmap_unmap]⟩

/-- The group of the name responders of a link, written as IPv6, lies in an IPv4 network and has the properties of the group. -/
theorem flags_agree_with_networks_mapped :
    let a := mapped 0xE00000FB#32
    a.LiesIn "224.0.0.0/24" ∧ (a.properties.linkLocalMulticast || a.properties.interfaceLocalMulticast) = true ∧
      a.properties.multicast = true ∧ (v4 0xE00000FB#32).properties = a.properties := by
  intro a
  obtain ⟨-, -, -, -, -, hlink, -, -, hgroup, hunmap⟩ := flags_agree_with_networks a
  have hlies : a.LiesIn "224.0.0.0/24" :=
    (liesIn_named_iff (v4 0xE0000000) 24 0xE00000 (by simp [namedNetworks]) rfl).mpr (by decide)
  have hscope : (a.properties.linkLocalMulticast || a.properties.interfaceLocalMulticast) = true := by
    rw [hlink.mpr (.inl hlies), Bool.true_or]
  rw [unmap_mapped] at hunmap
  exact ⟨hlies, hscope, hgroup hscope, hunmap⟩

end AssetGraph.Address

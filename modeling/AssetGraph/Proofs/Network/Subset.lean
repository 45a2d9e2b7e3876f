import AssetGraph.Proofs.Network.Interval

/-!
# Networks inside networks

One network is in another when its length is not shorter and its first address is contained. Then all its addresses are,
if they are counted in one width. IPv4-mapped addresses lie in IPv4 networks only, wherever they are met: a network of
nothing but them is in no IPv6 network, and an IPv6 network that holds them besides others is in another one by the numbers
of its addresses.
-/
namespace AssetGraph

namespace Address

variable {v w : BitVec 32} {length : Nat}

theorem getLsbD_toWord_mapped {i : Nat} (hi : i < 32) : (mapped w).toWord.getLsbD i = (v4 w).toWord.getLsbD i := by
  simp only [mapped, toWord]
  rw [BitVec.getLsbD_append, if_pos hi, BitVec.getLsbD_setWidth, decide_eq_true (by omega : i < 128), Bool.true_and]

/-- The first bits of the addresses that two IPv4-mapped ones carry come after the 96 bits that say so. -/
theorem mask_v4_of_mask_mapped {longer : Nat} (h : (mapped v).mask longer = (mapped w).mask longer)
    (hlength : length + 96 ≤ longer) : (v4 v).mask length = (v4 w).mask length := by
  have hmapped := (mask_eq_mask_iff (a := mapped v) (b := mapped w) rfl).mp h
  apply (mask_eq_mask_iff (a := v4 v) (b := v4 w) rfl).mpr
  intro i hi
  rcases Nat.lt_or_ge i 32 with hin | hout
  · have hkept : (mapped v).width - longer ≤ i := by
      have hv4 : 32 - length ≤ i := hi
      change 128 - longer ≤ i
      omega
    rw [← getLsbD_toWord_mapped hin, ← getLsbD_toWord_mapped hin]
    exact hmapped i hkept
  · rw [getLsbD_toWord_of_le hout, getLsbD_toWord_of_le hout]

end Address

namespace Network

variable {m n : Network} {a : Address}

theorem contains_iff_of_not_isMapped (h : ¬a.IsMapped) : m.contains a = true ↔ a ∈ m.interval := by
  rw [contains_iff_mem_interval, Address.unmap_eq_self h]

/-- One network is in another by the numbers of their addresses, unless it is one of IPv4-mapped addresses. -/
theorem containsNetwork_iff_interval_subset (h : ¬n.base.IsMapped) :
    m.containsNetwork n = true ↔ n.interval ⊆ m.interval := by
  constructor
  · intro hm
    obtain ⟨hlength, hbase⟩ := containsNetwork_iff.mp hm
    exact interval_subset hlength ((contains_iff_of_not_isMapped h).mp hbase) n.base_mem_interval
  · intro hsubset
    exact containsNetwork_of_isBetween m.masked m.mask_last (Address.unmap_eq_self h) (hsubset n.base_mem_interval)
      (hsubset n.last_mem_interval)

theorem isMapped_of_mem_interval (h : n.base.IsMapped) (ha : a ∈ n.interval) : a.IsMapped := by
  by_contra hplain
  have hbase := Address.unmap_mask (Address.unmap_eq_self hplain) n.length
  rw [mask_of_mem_interval ha] at hbase
  exact Address.isMapped_iff.mp h hbase

theorem le_length_of_isMapped (h : n.base.IsMapped) : 96 ≤ n.length := by
  obtain ⟨word, hword⟩ := h
  by_contra hshort
  have hwidth : n.base.width = 128 := by rw [hword]; rfl
  have hone : n.base.toWord.getLsbD 32 = true := by
    rw [hword]
    simp only [Address.mapped, Address.toWord]
    rw [BitVec.getLsbD_append, if_neg (by decide)]
    rfl
  rw [getLsbD_toWord_base (by omega)] at hone
  cases hone

/-- Of a network that holds the first of a network of IPv4-mapped addresses, and whose length counted in their width is not
greater, all of them are. -/
theorem contains_of_isMapped (h : n.base.IsMapped) (hbase : m.contains n.base = true)
    (hlength : m.length + 96 ≤ n.length) (ha : a ∈ n.interval) : m.contains a = true := by
  obtain ⟨v, rfl⟩ := isMapped_of_mem_interval h ha
  obtain ⟨w, hw⟩ := h
  have hsame : (Address.mapped v).mask n.length = (Address.mapped w).mask n.length := by
    rw [mask_of_mem_interval ha, ← hw, n.masked]
  rw [hw, contains_iff, Address.unmap_mapped] at hbase
  rw [contains_iff, Address.unmap_mapped]
  exact (Address.mask_v4_of_mask_mapped hsame hlength).trans hbase

theorem length_le_of_isV4 (h : m.isV4 = true) : m.length ≤ 32 := by
  have hle := m.length_le
  cases hbase : m.base with
  | v4 word => rwa [hbase] at hle
  | v6 word =>
    rw [isV4, hbase] at h
    cases h

theorem mem_interval_of_contains (h : ¬n.base.IsMapped) (hbase : m.contains n.base = true) (ha : a ∈ n.interval)
    (hm : m.contains a = true) : a ∈ m.interval := by
  by_cases hmapped : a.IsMapped
  · have hfamily := isV4_eq_of_contains hbase
    have hother := isV4_eq_of_contains hm
    rw [Address.unmap_eq_self h] at hfamily
    obtain ⟨word, rfl⟩ := hmapped
    rw [Address.unmap_mapped, hfamily, ← ha.family] at hother
    cases hother
  · exact (contains_iff_of_not_isMapped hmapped).mp hm

/-- Whether an address of one network lies in another: it is contained, or it is one of the IPv4-mapped addresses among
others and has a number in its interval. -/
def HoldsOf (m n : Network) (a : Address) : Prop :=
  m.contains a = true ∨ a.IsMapped ∧ ¬n.base.IsMapped ∧ a ∈ m.interval

/-- A network is in every one that holds all its addresses, be it of either family. -/
theorem containsNetwork_of_holdsOf (h : ∀ a ∈ n.interval, m.HoldsOf n a) : m.containsNetwork n = true := by
  have hbase : m.contains n.base = true :=
    (h n.base n.base_mem_interval).resolve_right fun hright => hright.2.1 hright.1
  by_cases hmapped : n.base.IsMapped
  · have hlong := le_length_of_isMapped hmapped
    have hfamily := isV4_eq_of_contains hbase
    obtain ⟨word, hword⟩ := hmapped
    rw [hword, Address.unmap_mapped] at hfamily
    have hshort := length_le_of_isV4 hfamily
    exact containsNetwork_iff.mpr ⟨by omega, hbase⟩
  · refine (containsNetwork_iff_interval_subset hmapped).mpr fun a ha => ?_
    rcases h a ha with hcontains | ⟨-, -, hinside⟩
    · exact mem_interval_of_contains hmapped hbase ha hcontains
    · exact hinside

theorem holdsOf_of_containsNetwork (hwidth : n.base.IsMapped → m.length + 96 ≤ n.length) (h : m.containsNetwork n = true)
    (ha : a ∈ n.interval) : m.HoldsOf n a := by
  by_cases hmapped : n.base.IsMapped
  · exact .inl (contains_of_isMapped hmapped (containsNetwork_iff.mp h).2 (hwidth hmapped) ha)
  · have hinside := (containsNetwork_iff_interval_subset hmapped).mp h ha
    by_cases hplain : a.IsMapped
    · exact .inr ⟨hplain, hmapped, hinside⟩
    · exact .inl ((contains_iff_of_not_isMapped hplain).mpr hinside)

theorem holdsOf_iff (h : n.base.IsMapped ∨ ¬a.IsMapped) : m.HoldsOf n a ↔ m.contains a = true := by
  refine ⟨fun ha => ha.resolve_right fun hright => ?_, .inl⟩
  rcases h with hmapped | hplain
  · exact hright.2.1 hmapped
  · exact hplain hright.1

/-- A network that contains each address of another holds it. Conversely, one network is in another when the other holds all
its addresses, and those are contained that are not IPv4-mapped among others: for networks without IPv4-mapped addresses, and
for those of nothing else, each address is. The converse leaves out IPv4-mapped networks whose first address lies in an IPv4
network that is longer when counted in their width. -/
theorem containsNetwork_iff_each (m n : Network) :
    ((∀ a ∈ n.interval, m.contains a = true) → m.containsNetwork n = true) ∧
    ((n.base.IsMapped → m.contains n.base = true → m.length + 96 ≤ n.length) →
      (m.containsNetwork n = true ↔ ∀ a ∈ n.interval, m.HoldsOf n a) ∧
      (n.base.IsMapped ∨ (∀ a ∈ n.interval, ¬a.IsMapped) →
        (m.containsNetwork n = true ↔ ∀ a ∈ n.interval, m.contains a = true))) := by
  refine ⟨fun h => containsNetwork_of_holdsOf fun a ha => .inl (h a ha), fun hwidth => ?_⟩
  have hholds : m.containsNetwork n = true ↔ ∀ a ∈ n.interval, m.HoldsOf n a := by
    refine ⟨fun h a ha => ?_, containsNetwork_of_holdsOf⟩
    exact holdsOf_of_containsNetwork (fun hmapped => hwidth hmapped (containsNetwork_iff.mp h).2) h ha
  refine ⟨hholds, fun halike => ?_⟩
  rw [hholds]
  refine forall₂_congr fun a ha => holdsOf_iff ?_
  exact halike.imp_right fun hplain => hplain a ha

/-- An IPv4 network holds the IPv4-mapped spelling of itself, address by address; the lengths are equal when counted in one
width. -/
theorem containsNetwork_iff_each_mapped :
    let m : Network := ⟨.v4 0x01020300#32, 24, by decide, by decide⟩
    let n : Network := ⟨.mapped 0x01020300#32, 120, by decide, by decide⟩
    n.base.IsMapped ∧ m.contains n.base = true ∧ m.length + 96 ≤ n.length ∧ m.containsNetwork n = true ∧
      ∀ a ∈ n.interval, m.contains a = true := by
  intro m n
  have hmapped : n.base.IsMapped := ⟨_, rfl⟩
  have hlength : m.length + 96 ≤ n.length := by decide
  obtain ⟨-, halike⟩ := (containsNetwork_iff_each m n).2 fun _ _ => hlength
  have hm : m.containsNetwork n = true := by decide
  exact ⟨hmapped, by decide, hlength, hm, (halike (.inl hmapped)).mp hm⟩

/-- The IPv6 network of all addresses is in itself, although it contains no IPv4-mapped address. -/
theorem whole_space_contains_not_each :
    let whole : Network := ⟨.v6 0#128, 0, by decide, by decide⟩
    ¬(whole.containsNetwork whole = true ↔ ∀ a ∈ whole.interval, whole.contains a = true) := by
  intro whole h
  have hself : whole.containsNetwork whole = true := by decide
  have hmapped : Address.mapped 0x01020304#32 ∈ whole.interval := ⟨by decide, by decide, by decide⟩
  have hother : whole.contains (.mapped 0x01020304#32) = false := by decide
  rw [h.mp hself _ hmapped] at hother
  cases hother

end Network
end AssetGraph

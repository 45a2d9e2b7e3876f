import AssetGraph.Proofs.Cache.RangeHistory
import AssetGraph.Proofs.Network.Interval

/-!
# Which addresses a stored network answers for

A network that is stored answers for every address from its first to its last one until it expires, unless a longer one
answers. The IPv4-mapped addresses of an IPv6 network are the exception: they are searched as IPv4, where no IPv6 network
is found.
-/
namespace AssetGraph.Cache.Ranges

variable {V : Type} {start ttl : Nat} {uses before after : List (Use V)} {n : Network} {v : V} {a : Address}

/-- What is stored for a network is there until its time is up, as long as no use takes it away. -/
theorem stores_of_kept (hkept : ∀ use ∈ after, ¬use.Overrides n)
    (hlive : (used start (before ++ .store n v ttl :: after)).now < (used start before).now + ttl) :
    Stores start (before ++ .store n v ttl :: after) n v :=
  ⟨_, ⟨before, ttl, after, rfl, rfl, hkept⟩, hlive⟩

/-- A stored network that holds an address answers for it, or a longer one does. -/
theorem exists_answer_of_stores (h : Stores start uses n v) (ha : n.contains a = true) :
    ∃ w, ((used start uses).ranges.searchAddress (used start uses).now a).1 = some w ∧
      (w = v ∨ ∃ m, Stores start uses m w ∧ n.length < m.length ∧ m.contains a = true) := by
  have haround : n.contains a.unmap = true := by rwa [Network.contains_unmap]
  have hfound : ∃ r, (used start uses).ranges.winner? (used start uses).now n.isV4 (fun m => m.contains a.unmap) = some r :=
    exists_winner?_of_stores h haround
  obtain ⟨r, hr⟩ := hfound
  obtain ⟨hstored, -, hholds⟩ := stores_of_winner? hr
  have hlength := length_le_of_winner? hr h haround
  have hanswer : ((used start uses).ranges.searchAddress (used start uses).now a).1 = some r.value := by
    rw [Network.isV4_eq_of_contains ha] at hr
    exact Option.map_eq_some_iff.mpr ⟨r, hr, rfl⟩
  refine ⟨r.value, hanswer, ?_⟩
  rcases Nat.lt_or_eq_of_le hlength with hlonger | hsame
  · refine .inr ⟨r.network, hstored, hlonger, ?_⟩
    rwa [← Network.contains_unmap]
  · have hnetwork := Network.eq_of_contains haround hholds hsame
    exact .inl (Stores.unique (hnetwork ▸ hstored) h)

/-- After a network is stored, and until it expires or is taken away, every address from its first to its last one is
answered, with the stored value or that of a longer network; but an IPv4-mapped address is answered as the IPv4 address
that it carries. -/
theorem stored_network_answers (hkept : ∀ use ∈ after, ¬use.Overrides n)
    (hlive : (used start (before ++ .store n v ttl :: after)).now < (used start before).now + ttl) :
    let uses := before ++ .store n v ttl :: after
    let s := used start uses
    (∀ a : Address, a.IsBetween n.base n.last → ¬a.IsMapped →
      ∃ w, (s.ranges.searchAddress s.now a).1 = some w ∧
        (w = v ∨ ∃ m, Stores start uses m w ∧ n.length < m.length ∧ m.contains a = true)) ∧
    ∀ word, s.ranges.searchAddress s.now (.mapped word) = s.ranges.searchAddress s.now (.v4 word) := by
  intro uses s
  constructor
  · intro a hbetween hplain
    have hcontains : n.contains a = true := by
      rw [Network.contains_iff_mem_interval, Address.unmap_eq_self hplain]
      exact hbetween
    exact exists_answer_of_stores (stores_of_kept hkept hlive) hcontains
  · intro word
    unfold searchAddress
    rw [Address.unmap_mapped]
    rfl

/-- The last address of a network of length zero is answered at the last moment, after a longer network has expired. -/
theorem stored_network_answers_whole_space :
    let whole : Network := ⟨.v6 0#128, 0, by decide, by decide⟩
    let upper : Network := ⟨.v6 (1#128 <<< 127), 1, by decide, by decide⟩
    let after : List (Use String) := [.store upper "upper" 99, .advance 99]
    let uses : List (Use String) := [] ++ .store whole "whole" 100 :: after
    let a : Address := .v6 (BitVec.allOnes 128)
    (∀ use ∈ after, ¬use.Overrides whole) ∧ (used 0 uses).now < 0 + 100 ∧ a.IsBetween whole.base whole.last ∧
      ¬a.IsMapped ∧
      ∃ w, ((used 0 uses).ranges.searchAddress (used 0 uses).now a).1 = some w ∧
        (w = "whole" ∨ ∃ m, Stores 0 uses m w ∧ 0 < m.length ∧ m.contains a = true) := by
  intro whole upper after uses a
  have hother : upper ≠ whole := by decide
  have hkept : ∀ use ∈ after, ¬use.Overrides whole := by
    intro use huse
    rcases List.mem_pair.mp huse with rfl | rfl
    · exact hother
    · exact id
  have hlive : (used 0 uses).now < (used 0 ([] : List (Use String))).now + 100 := by decide
  have hbetween : a.IsBetween whole.base whole.last := ⟨by decide, by decide, by decide⟩
  have hplain : ¬a.IsMapped := by decide
  exact ⟨hkept, hlive, hbetween, hplain, (stored_network_answers hkept hlive).1 a hbetween hplain⟩

/-- An address from the first to the last one of a stored network is not found when it is IPv4 written as IPv6. -/
theorem mapped_address_not_answered :
    let n : Network := ⟨.v6 0xFFFF00000000#128, 96, by decide, by decide⟩
    let a : Address := .mapped 0x01020304#32
    let s := used 0 [.store n "mapped" 1000]
    a.IsBetween n.base n.last ∧ s.now < 0 + 1000 ∧ (s.ranges.searchAddress s.now a).1 = none :=
  ⟨⟨by decide, by decide, by decide⟩, by decide, by decide⟩

end AssetGraph.Cache.Ranges

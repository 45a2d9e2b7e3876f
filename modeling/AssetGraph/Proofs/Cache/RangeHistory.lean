import AssetGraph.Proofs.Cache.History
import AssetGraph.Proofs.Cache.Unexpired
import AssetGraph.Proofs.Network.Bits

/-!
# What a range cache remembers of its history

Whatever was done with a range cache, its unexpired ranges are the last stores for their networks since it was cleared.
Searches and the ranges that they drop do not show. Networks that hold one target lie in one another and differ in length,
so a search is answered by the last store for the longest, and the order of storing never decides.
-/
namespace AssetGraph.Cache.Ranges

inductive Use (V : Type) where
  | store (network : Network) (value : V) (ttl : Nat)
  | searchAddress (address : Address)
  | searchNetwork (network : Network)
  | clear
  | advance (milliseconds : Nat)

structure Timed (V : Type) where
  now : Nat
  ranges : Ranges V := {}

variable {V : Type} {start deadline : Nat} {uses : List (Use V)} {use : Use V} {n m : Network} {v w : V}

namespace Use

def apply : Use V → Timed V → Timed V
  | store network value ttl, s => { s with ranges := s.ranges.store s.now network value ttl }
  | searchAddress address, s => { s with ranges := (s.ranges.searchAddress s.now address).2 }
  | searchNetwork network, s => { s with ranges := (s.ranges.searchNetwork s.now network).2 }
  | clear, s => { s with ranges := s.ranges.clear }
  | advance milliseconds, s => { s with now := s.now + milliseconds }

/-- Whether a use takes away what was stored for a network before. -/
def Overrides : Use V → Network → Prop
  | store network _ _, n => network = n
  | clear, _ => True
  | searchAddress _, _ | searchNetwork _, _ | advance _, _ => False

end Use

def used (start : Nat) (uses : List (Use V)) : Timed V := uses.foldl (fun s use => use.apply s) ⟨start, {}⟩

theorem used_concat (start : Nat) (uses : List (Use V)) (use : Use V) :
    used start (uses ++ [use]) = use.apply (used start uses) := by
  simp [used]

/-- The last store for a network since the cache was cleared, and the moment at which it expires. -/
def LastStore (start : Nat) (uses : List (Use V)) (n : Network) (value : V) (deadline : Nat) : Prop :=
  ∃ before ttl after, uses = before ++ .store n value ttl :: after ∧ deadline = (used start before).now + ttl ∧
    ∀ use ∈ after, ¬use.Overrides n

namespace LastStore

theorem nil : ¬LastStore start ([] : List (Use V)) n v deadline := by
  rintro ⟨before, ttl, after, huses, -⟩
  cases before <;> cases huses

theorem iff_exists_last : LastStore start uses n v deadline ↔
    ∃ before did after, uses = before ++ did :: after ∧
      (∃ ttl, did = .store n v ttl ∧ deadline = (used start before).now + ttl) ∧ ∀ use ∈ after, ¬use.Overrides n := by
  constructor
  · rintro ⟨before, ttl, after, huses, hdeadline, hafter⟩
    exact ⟨before, _, after, huses, ⟨ttl, rfl, hdeadline⟩, hafter⟩
  · rintro ⟨before, _, after, huses, ⟨ttl, rfl, hdeadline⟩, hafter⟩
    exact ⟨before, ttl, after, huses, hdeadline, hafter⟩

/-- A last store is the last use of a history, or the last store before a use that does not take it away. -/
theorem concat_iff : LastStore start (uses ++ [use]) n v deadline ↔
    (∃ ttl, use = .store n v ttl ∧ deadline = (used start uses).now + ttl) ∨
      LastStore start uses n v deadline ∧ ¬use.Overrides n := by
  rw [iff_exists_last, exists_last_concat_iff, ← iff_exists_last]

theorem unique {deadline' : Nat} (h : LastStore start uses n v deadline) (h' : LastStore start uses n w deadline') :
    v = w ∧ deadline = deadline' := by
  induction uses using List.reverseRecOn with
  | nil => exact absurd h nil
  | append_singleton uses use ih =>
    rcases concat_iff.mp h with ⟨ttl, rfl, rfl⟩ | ⟨hold, hkept⟩ <;>
      rcases concat_iff.mp h' with ⟨ttl', hsame, rfl⟩ | ⟨hold', hkept'⟩
    · cases hsame
      exact ⟨rfl, rfl⟩
    · exact absurd rfl hkept'
    · subst hsame
      exact absurd rfl hkept
    · exact ih hold hold'

end LastStore

/-- Whether the ranges are last stores, and the last stores that have not expired are among the ranges. -/
structure RefinesHistory (start : Nat) (uses : List (Use V)) (s : Timed V) : Prop where
  family : ∀ isV4, ∀ r ∈ s.ranges.family isV4, r.network.isV4 = isV4
  sound : ∀ isV4, ∀ r ∈ s.ranges.family isV4, LastStore start uses r.network r.value r.expiresAt
  complete : ∀ n v deadline, LastStore start uses n v deadline → s.now < deadline →
    ∃ r ∈ s.ranges.family n.isV4, r.network = n ∧ r.value = v ∧ r.expiresAt = deadline

namespace RefinesHistory

variable {s : Timed V}

theorem empty (start : Nat) : RefinesHistory start ([] : List (Use V)) ⟨start, {}⟩ where
  family isV4 r hr := by cases isV4 <;> cases hr
  sound isV4 r hr := by cases isV4 <;> cases hr
  complete n v deadline h := absurd h LastStore.nil

theorem store (h : RefinesHistory start uses s) (hnow : s.now = (used start uses).now) (network : Network) (value : V)
    (ttl : Nat) :
    RefinesHistory start (uses ++ [.store network value ttl])
      { s with ranges := s.ranges.store s.now network value ttl } where
  family isV4 r hr := isV4_of_mem_store (h.family isV4) hr
  sound isV4 r hr := by
    rw [LastStore.concat_iff]
    rcases mem_of_mem_store hr with ⟨hold, hother⟩ | ⟨rfl, rfl⟩
    · refine .inr ⟨h.sound isV4 r hold, fun hsame => ?_⟩
      subst hsame
      exact hother (h.family isV4 r hold).symm rfl
    · exact .inl ⟨ttl, rfl, by rw [hnow]⟩
  complete n v deadline hlast hlive := by
    rcases LastStore.concat_iff.mp hlast with ⟨ttl', hsame, rfl⟩ | ⟨hold, hkept⟩
    · cases hsame
      exact ⟨_, mem_store_self s.ranges s.now network value ttl, rfl, rfl, by rw [hnow]⟩
    · obtain ⟨r, hr, rfl, rfl, rfl⟩ := h.complete n v deadline hold hlive
      exact ⟨r, mem_store_of_ne hr (Ne.symm hkept), rfl, rfl, rfl⟩

theorem of_silent {s' : Timed V} (h : RefinesHistory start uses s) (hsilent : ∀ n, ¬use.Overrides n)
    (hmem : ∀ isV4, ∀ r ∈ s'.ranges.family isV4, r ∈ s.ranges.family isV4) (hnow : s.now ≤ s'.now)
    (hkept : ∀ isV4, ∀ r ∈ s.ranges.unexpired s.now isV4, r ∈ s'.ranges.family isV4) :
    RefinesHistory start (uses ++ [use]) s' where
  family isV4 r hr := h.family isV4 r (hmem isV4 r hr)
  sound isV4 r hr := LastStore.concat_iff.mpr (.inr ⟨h.sound isV4 r (hmem isV4 r hr), hsilent _⟩)
  complete n v deadline hlast hlive := by
    rcases LastStore.concat_iff.mp hlast with ⟨ttl, rfl, -⟩ | ⟨hold, -⟩
    · exact absurd rfl (hsilent n)
    · obtain ⟨r, hr, rfl, rfl, rfl⟩ := h.complete n v deadline hold (Nat.lt_of_le_of_lt hnow hlive)
      exact ⟨r, hkept _ r (mem_unexpired.mpr ⟨hr, Nat.lt_of_le_of_lt hnow hlive⟩), rfl, rfl, rfl⟩

theorem search (h : RefinesHistory start uses s) (hsilent : ∀ n, ¬use.Overrides n) (isV4 : Bool)
    (holds : Network → Bool) :
    RefinesHistory start (uses ++ [use]) { s with ranges := (s.ranges.search s.now isV4 holds).2 } := by
  refine h.of_silent hsilent (fun _ _ hr => mem_of_mem_search hr) (Nat.le_refl _) fun other r hr => ?_
  rw [← unexpired_search (Nat.le_refl _)] at hr
  exact (mem_unexpired.mp hr).1

theorem clear (s : Timed V) : RefinesHistory start (uses ++ [.clear]) { s with ranges := s.ranges.clear } where
  family isV4 r hr := by
    rw [family_clear] at hr
    cases hr
  sound isV4 r hr := by
    rw [family_clear] at hr
    cases hr
  complete n v deadline hlast := by
    rcases LastStore.concat_iff.mp hlast with ⟨ttl, hsame, -⟩ | ⟨-, hkept⟩
    · cases hsame
    · exact absurd trivial hkept

theorem apply (h : RefinesHistory start uses (used start uses)) (use : Use V) :
    RefinesHistory start (uses ++ [use]) (use.apply (used start uses)) := by
  cases use with
  | store network value ttl => exact h.store rfl network value ttl
  | searchAddress a => exact h.search (fun _ => id) _ _
  | searchNetwork n => exact h.search (fun _ => id) _ _
  | clear => exact clear _
  | advance milliseconds =>
    exact h.of_silent (fun _ => id) (fun _ _ hr => hr) (Nat.le_add_right _ _) fun _ r hr => (mem_unexpired.mp hr).1

end RefinesHistory

/-- The ranges refine every history, by induction on its last use. -/
theorem refinesHistory (start : Nat) (uses : List (Use V)) : RefinesHistory start uses (used start uses) := by
  induction uses using List.reverseRecOn with
  | nil => exact .empty start
  | append_singleton uses use ih =>
    rw [used_concat]
    exact ih.apply use

/-- What is stored for a network: the value of its last store, as long as that has not expired. -/
def Stores (start : Nat) (uses : List (Use V)) (n : Network) (value : V) : Prop :=
  ∃ deadline, LastStore start uses n value deadline ∧ (used start uses).now < deadline

theorem Stores.unique (h : Stores start uses n v) (h' : Stores start uses n w) : v = w := by
  obtain ⟨deadline, hlast, -⟩ := h
  obtain ⟨deadline', hlast', -⟩ := h'
  exact (hlast.unique hlast').1

theorem Stores.exists_unexpired (h : Stores start uses n v) :
    ∃ r ∈ (used start uses).ranges.unexpired (used start uses).now n.isV4, r.network = n ∧ r.value = v := by
  obtain ⟨deadline, hlast, hlive⟩ := h
  obtain ⟨r, hr, rfl, rfl, rfl⟩ := (refinesHistory start uses).complete n v deadline hlast hlive
  exact ⟨r, mem_unexpired.mpr ⟨hr, hlive⟩, rfl, rfl⟩

section Search

variable {isV4 : Bool} {holds : Network → Bool} {r : Range V} {found : Network → V → Prop} {answer : Option V}
  {around : Address}

theorem stores_of_winner? (h : (used start uses).ranges.winner? (used start uses).now isV4 holds = some r) :
    Stores start uses r.network r.value ∧ r.network.isV4 = isV4 ∧ holds r.network = true := by
  obtain ⟨hr, hlive, hholds⟩ := winner?_spec h
  have hhistory := refinesHistory start uses
  exact ⟨⟨r.expiresAt, hhistory.sound isV4 r hr, hlive⟩, hhistory.family isV4 r hr, hholds⟩

theorem exists_winner?_of_stores (h : Stores start uses n v) (hholds : holds n = true) :
    ∃ w, (used start uses).ranges.winner? (used start uses).now n.isV4 holds = some w := by
  obtain ⟨r, hr, rfl, -⟩ := h.exists_unexpired
  exact exists_winner? hr hholds

theorem length_le_of_winner? (h : (used start uses).ranges.winner? (used start uses).now n.isV4 holds = some r)
    (hn : Stores start uses n v) (hholds : holds n = true) : n.length ≤ r.network.length := by
  obtain ⟨r', hr', rfl, -⟩ := hn.exists_unexpired
  obtain ⟨hmem, hlive⟩ := mem_unexpired.mp hr'
  refine Range.length_le_of_best? h r' (List.mem_filter.mpr ⟨hmem, ?_⟩)
  rw [hholds, Range.isExpired, decide_eq_false (Nat.not_le.mpr hlive)]
  rfl

/-- How a search is decided among the networks that it finds. They lie in one another, the longer in the shorter, and no
two are of one length; the value of the longest is the answer. -/
structure Narrows (found : Network → V → Prop) (answer : Option V) : Prop where
  answer_iff : ∀ v, answer = some v ↔ ∃ n, found n v ∧ ∀ m w, found m w → m.length ≤ n.length
  none_iff : answer = none ↔ ∀ n v, ¬found n v
  nested : ∀ m w n v, found m w → found n v → m.length ≤ n.length →
    m.containsNetwork n = true ∧ ∀ a, n.contains a = true → m.contains a = true
  distinct : ∀ m w n v, found m w → found n v → m.length = n.length → m = n ∧ w = v

/-- Networks around one address leave no choice but the longest. -/
theorem Narrows.of_around (haround : ∀ n v, found n v → n.contains around = true)
    (hunique : ∀ n v w, found n v → found n w → v = w)
    (hlongest : ∀ v, answer = some v → ∃ n, found n v ∧ ∀ m w, found m w → m.length ≤ n.length)
    (hexists : ∀ n v, found n v → ∃ w, answer = some w) : Narrows found answer := by
  have hdistinct : ∀ m w n v, found m w → found n v → m.length = n.length → m = n ∧ w = v := by
    intro m w n v hm hn hlength
    obtain rfl : m = n := Network.eq_of_contains (haround m w hm) (haround n v hn) hlength
    exact ⟨rfl, hunique m w v hm hn⟩
  constructor
  case distinct => exact hdistinct
  case nested =>
    intro m w n v hm hn hlength
    have hinside := Network.containsNetwork_of_contains (haround m w hm) (haround n v hn) hlength
    exact ⟨hinside, fun a ha => Network.contains_of_containsNetwork hinside ha⟩
  case answer_iff =>
    refine fun v => ⟨hlongest v, ?_⟩
    rintro ⟨n, hn, hn_longest⟩
    obtain ⟨w, hw⟩ := hexists n v hn
    obtain ⟨m, hm, hm_longest⟩ := hlongest w hw
    have hlength : m.length = n.length := Nat.le_antisymm (hn_longest m w hm) (hm_longest n v hn)
    rw [hw, (hdistinct m w n v hm hn hlength).2]
  case none_iff =>
    constructor
    · intro hnone n v hn
      obtain ⟨w, hw⟩ := hexists n v hn
      rw [hnone] at hw
      cases hw
    · intro hnothing
      rw [Option.eq_none_iff_forall_ne_some]
      intro v hv
      obtain ⟨n, hn, -⟩ := hlongest v hv
      exact hnothing n v hn

/-- A search is decided by what is stored for the networks of its family that hold the target, all around one address. -/
theorem narrows_search (haround : ∀ n, holds n = true → n.contains around = true)
    (hfound : ∀ n v, found n v ↔ Stores start uses n v ∧ n.isV4 = isV4 ∧ holds n = true) :
    Narrows found ((used start uses).ranges.search (used start uses).now isV4 holds).1 := by
  change Narrows found (((used start uses).ranges.winner? (used start uses).now isV4 holds).map Range.value)
  refine Narrows.of_around (fun n v hn => haround n ((hfound n v).mp hn).2.2)
    (fun n v w hv hw => ((hfound n v).mp hv).1.unique ((hfound n w).mp hw).1) (fun v hv => ?_) fun n v hn => ?_
  · obtain ⟨r, hr, rfl⟩ := Option.map_eq_some_iff.mp hv
    refine ⟨r.network, (hfound _ _).mpr (stores_of_winner? hr), fun m w hm => ?_⟩
    obtain ⟨hstored, rfl, hholds⟩ := (hfound m w).mp hm
    exact length_le_of_winner? hr hstored hholds
  · obtain ⟨hstored, rfl, hholds⟩ := (hfound n v).mp hn
    obtain ⟨r, hr⟩ := exists_winner?_of_stores hstored hholds
    exact ⟨r.value, Option.map_eq_some_iff.mpr ⟨r, hr, rfl⟩⟩

end Search

/-- After any history a search by an address is decided by what is stored for the networks that hold it, and a search by a
network by what is stored for those of its family around it. -/
theorem searches_refine_history (start : Nat) (uses : List (Use V)) :
    let s := used start uses
    (∀ a, Narrows (fun n v => Stores start uses n v ∧ n.contains a.unmap = true) (s.ranges.searchAddress s.now a).1) ∧
      ∀ target, Narrows (fun n v => Stores start uses n v ∧ n.isV4 = target.isV4 ∧ n.containsNetwork target = true)
        (s.ranges.searchNetwork s.now target).1 := by
  refine ⟨fun a => narrows_search (fun n => id) fun n v => and_congr_right fun _ => ?_, fun target =>
    narrows_search (fun n hn => (Network.containsNetwork_iff.mp hn).2) fun n v => Iff.rfl⟩
  refine ⟨fun h => ⟨?_, h⟩, And.right⟩
  rw [Network.isV4_eq_of_contains h, Address.unmap_unmap]

/-- A short-lived store takes the place of a longer-lived one for its network; once it has expired, the network around it
answers. -/
example :
    let wide : Network := ⟨.v4 0x0A000000#32, 8, by decide, by decide⟩
    let narrow : Network := ⟨.v4 0x0A010000#32, 16, by decide, by decide⟩
    let s := used 0 [.store narrow "first" 100, .store wide "wide" 100, .store narrow "second" 10, .advance 10]
    (s.ranges.searchAddress s.now (.v4 0x0A010203#32)).1 = some "wide" := by
  decide +kernel

end AssetGraph.Cache.Ranges

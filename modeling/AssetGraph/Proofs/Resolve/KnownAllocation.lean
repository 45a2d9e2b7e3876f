import AssetGraph.Proofs.Network.Bits
import AssetGraph.Proofs.Resolve.Allocations

/-!
# Searches inside a known allocation

An allocation that the registry reported answers every search for what lies between its two ends, for the lifetime of
allocations. The network for which it is remembered holds all of that, whether or not the allocation is aligned.
-/
namespace AssetGraph.Resolve

open IpNetworks

variable {c : Config} {world : World} {t : Task} {q q' : Query} {s : State} {n : Network} {target : Target}
  {start stop : Address} {ignoreCache ignoreCache' : Bool}

/-- Whether a target lies between two ends. An IPv4-mapped address does when its IPv4 form does, and a network when its
first and last addresses do. -/
inductive IpNetworks.Target.IsInside (start stop : Address) : Target → Prop
  | address {a : Address} (plain : a.unmap = a) (between : a.IsBetween start stop) : IsInside start stop (.address a)
  | mapped {word : BitVec 32} (between : (Address.v4 word).IsBetween start stop) :
    IsInside start stop (.address (.mapped word))
  | network {m : Network} (plain : m.base.unmap = m.base) (first : m.base.IsBetween start stop)
    (last : m.last.IsBetween start stop) : IsInside start stop (.network m)

namespace IpNetworks.Target.IsInside

theorem isWithin (h : target.IsInside start stop) (hstart : start.mask n.length = n.base)
    (hstop : stop.mask n.length = n.base) : target.isV4 = n.isV4 ∧ target.isWithin n = true := by
  have hfamily : start.isV4 = n.isV4 := by rw [Network.isV4, ← hstart, Address.isV4_mask]
  cases h with
  | @address a plain between =>
    constructor
    · rw [isV4, plain, between.family, hfamily]
    · rw [Target.isWithin, plain]
      exact Network.contains_of_isBetween hstart hstop (plain.symm ▸ between)
  | @mapped word between =>
    constructor
    · rw [isV4, Address.unmap_mapped, between.family, hfamily]
    · rw [Target.isWithin, Network.contains_unmap]
      exact Network.contains_of_isBetween hstart hstop (Address.unmap_mapped word ▸ between)
  | network plain first last =>
    constructor
    · rw [isV4, Network.isV4, first.family, hfamily]
    · exact Network.containsNetwork_of_isBetween hstart hstop plain first last

end IpNetworks.Target.IsInside

theorem Task.remembered_of_asked {answer : Except Rdap.ClientError Rdap.Response} {allocation : Rdap.IpNetwork}
    {asked : Request} (hservice : t.service c = .resolve (IpNetworks.resolve t) none)
    (h : Event.asked asked ∈ (t.serve (t.service c)).events world s)
    (ha : world s.requests (.rdap (request t.text)) = some answer)
    (hallocation : allocationOf t.text answer = .ok (allocation, n)) :
    Event.remembered n ∈ (t.serve (t.service c)).events world s := by
  rcases mem_events_serve h with ⟨_, hlookup⟩ | ⟨r, missing, hresolve, hrecalled, hmem | ⟨hkept, -⟩⟩
  · cases hlookup
  · rw [hservice] at hresolve
    cases hresolve
    exact events_resolution_subset hservice hrecalled (IpNetworks.remembered_of_asked hmem ha hallocation)
  · cases hkept

theorem Task.run_serve_of_around {range : Cache.Range Rdap.IpNetwork}
    (hservice : t.service c = .resolve (IpNetworks.resolve t) none) (hparse : Target.parse? t.text = some target)
    (hr : target.around? s = some range) :
    ∃ o, ((t.serve (t.service c)).run world s).1 = some o ∧
      ((t.serve (t.service c)).run world s).2.requests = s.requests ∧
      (t.ignoreCache = true → o = .ok [itemOf t range.value]) := by
  rw [hservice]
  cases hrecalled : t.recalled? s with
  | some o =>
    rw [run_serve_recalled hrecalled]
    refine ⟨_, rfl, rfl, fun hunwanted => ?_⟩
    obtain ⟨hwanted, -⟩ := Cache.Results.lookup_eq_some_iff.mp hrecalled
    rw [hunwanted] at hwanted
    cases hwanted
  | none =>
    have hfound : (IpNetworks.resolve t).run.run world (t.afterLookup s) =
        (some (.ok [itemOf t range.value]), target.afterSearch (t.afterLookup s)) := run_resolve_found hparse hr
    rw [run_serve_resolved hrecalled hfound]
    exact ⟨_, rfl, rfl, fun _ => rfl⟩

/-- A search that is told of an allocation remembers it for a network that holds both of its ends. -/
theorem remembered_of_reported {response : Rdap.Response} {allocation : Rdap.IpNetwork}
    (htype : ItemType.ofName? q.type = some .ipNetwork) (hmethod : q.method = .search)
    (hasked : Event.asked (.rdap (request q.text)) ∈ (execute c q ignoreCache).events world s)
    (hanswer : world s.requests (.rdap (request q.text)) = some (.ok response))
    (hobject : response.object = some (.ipNetwork allocation))
    (hstart : Network.readEnd allocation.startAddress = .ok start)
    (hstop : Network.readEnd allocation.endAddress = .ok stop) (hfamily : start.isV4 = stop.isV4) :
    ∃ n : Network, start.mask n.length = n.base ∧ stop.mask n.length = n.base ∧
      Event.remembered n ∈ (execute c q ignoreCache).events world s := by
  have hscope : q.scope = globalScope := by
    by_contra hother
    rw [execute_unserved htype hother] at hasked
    cases hasked
  obtain ⟨n, hcovering, hfirst, hlast⟩ := Network.exists_covering hstart hstop hfamily
  have hallocation : allocationOf q.text (.ok response) = .ok (allocation, n) :=
    allocationOf_of_object hobject hcovering
  refine ⟨n, hfirst, hlast, ?_⟩
  rw [execute_known c htype] at hasked ⊢
  exact Task.remembered_of_asked (Task.service_search rfl hmethod hscope) hasked hanswer hallocation

/-- Once the registry has reported an allocation to a search, and until its lifetime is over, every search for what lies
between its two ends is answered without asking, whatever is executed in between. -/
theorem known_allocation_answers (htype : ItemType.ofName? q.type = some .ipNetwork) (hmethod : q.method = .search)
    {response : Rdap.Response} {allocation : Rdap.IpNetwork}
    (hasked : Event.asked (.rdap (request q.text)) ∈ (execute c q ignoreCache).events world s)
    (hanswer : world s.requests (.rdap (request q.text)) = some (.ok response))
    (hobject : response.object = some (.ipNetwork allocation))
    (hstart : Network.readEnd allocation.startAddress = .ok start)
    (hstop : Network.readEnd allocation.endAddress = .ok stop) (hfamily : start.isV4 = stop.isV4)
    (steps : List Step)
    (hnow : (after c world steps ((execute c q ignoreCache).run world s).2).now < s.now + lifetime c .ipNetwork)
    (htype' : ItemType.ofName? q'.type = some .ipNetwork) (hmethod' : q'.method = .search)
    (hscope' : q'.scope = globalScope) (hparse' : Target.parse? q'.text = some target)
    (hinside : target.IsInside start stop) :
    let later := after c world steps ((execute c q ignoreCache).run world s).2
    ∃ o, ((execute c q' ignoreCache').run world later).1 = some o ∧
      ((execute c q' ignoreCache').run world later).2.requests = later.requests ∧
      (ignoreCache' = true → ∃ item, o = .ok [item]) := by
  intro later
  obtain ⟨n, hfirst, hlast, hremembered⟩ :=
    remembered_of_reported htype hmethod hasked hanswer hobject hstart hstop hfamily
  have hsince : s.now ≤ later.now := by
    have hle : ((execute c q ignoreCache).run world s).2.now ≤ later.now := now_le_after steps _
    rwa [Plan.now_run] at hle
  have hpos : 0 < lifetime c .ipNetwork :=
    Nat.pos_of_lt_add_right (Nat.lt_of_le_of_lt hsince hnow)
  have hknown : RemembersUntil n (s.now + lifetime c .ipNetwork) later := by
    refine (RemembersUntil.of_remembered hremembered hpos).after ?_ steps hnow
    exact Nat.le_of_eq (by rw [Plan.now_run])
  obtain ⟨range, hrange, rfl, -⟩ := hknown
  obtain ⟨hsame, hwithin⟩ := hinside.isWithin hfirst hlast
  obtain ⟨winner, hwinner⟩ := Cache.Ranges.exists_winner? hrange hwithin
  rw [← hsame] at hwinner
  rw [execute_known c htype']
  obtain ⟨o, ho, hrequests, hitem⟩ := Task.run_serve_of_around (t := .ofQuery c .ipNetwork q' ignoreCache')
    (Task.service_search rfl hmethod' hscope') hparse' hwinner
  exact ⟨o, ho, hrequests, fun hunwanted => ⟨_, hitem hunwanted⟩⟩

/-- An allocation that is not aligned, reported twice, answers to the last millisecond for an IPv4-mapped address. -/
theorem known_allocation_answers_mapped :
    let allocation : Rdap.IpNetwork := { startAddress := "1.1.1.5", endAddress := "1.1.2.9" }
    let world := (Client.ofAllocation allocation).world
    let q : Query := ⟨"rdap-ip-network", .search, "1.1.1.5", "global"⟩
    let steps := [Step.advance 1000, .execute ⟨"rdap-ip-network", .search, "8.8.8.8", "global"⟩ false, .advance 1798999]
    let later := after {} world steps ((execute {} q false).run world {}).2
    let q' : Query := ⟨"rdap-ip-network", .search, "::ffff:1.1.2.1", "global"⟩
    later.now = 1799999 ∧
      ∃ item, ((execute {} q' true).run world later).1 = some (.ok [item]) ∧
        ((execute {} q' true).run world later).2.requests = later.requests := by
  intro allocation world q steps later q'
  have hnow : later.now = 1799999 := by decide +kernel
  have hasked : Event.asked (.rdap (request q.text)) ∈ (execute {} q false).events world {} := by decide +kernel
  have hstart : Network.readEnd allocation.startAddress = .ok (.v4 0x01010105#32) := by decide +kernel
  have hstop : Network.readEnd allocation.endAddress = .ok (.v4 0x01010209#32) := by decide +kernel
  have haddress : Address.parse? q'.text = some (.mapped 0x01010201#32) := by decide +kernel
  have hparse : Target.parse? q'.text = some (.address (.mapped 0x01010201#32)) := by
    rw [Target.parse?, haddress]
  have hinside : (Target.address (.mapped 0x01010201#32)).IsInside (.v4 0x01010105#32) (.v4 0x01010209#32) :=
    .mapped ⟨rfl, by decide, by decide⟩
  have hanswered : ∃ o, ((execute {} q' true).run world later).1 = some o ∧
      ((execute {} q' true).run world later).2.requests = later.requests ∧ (true = true → ∃ item, o = .ok [item]) :=
    known_allocation_answers (by decide) rfl hasked rfl rfl hstart hstop rfl steps (hnow ▸ by decide) (by decide) rfl
      rfl hparse hinside
  obtain ⟨o, ho, hrequests, hitem⟩ := hanswered
  obtain ⟨item, rfl⟩ := hitem rfl
  exact ⟨hnow, item, ho, hrequests⟩

end AssetGraph.Resolve

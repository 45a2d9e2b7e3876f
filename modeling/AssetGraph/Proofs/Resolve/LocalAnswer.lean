import AssetGraph.Proofs.Network.Bits
import AssetGraph.Proofs.Rdap.Attributes
import AssetGraph.Proofs.Resolve.History

/-!
# Searches answered from remembered allocations

An allocation is remembered for the smallest network that holds both of its ends, which is wider than the allocation when
that is not aligned. A search that it answers is for an address of that network.
-/
namespace AssetGraph.Resolve

open IpNetworks

variable {c : Config} {world : World} {t : Task} {q : Query} {s : State} {n : Network} {a : Address}
  {ignoreCache isV4 : Bool}

/-- Every allocation is remembered for the network that covers its two ends. -/
theorem Reachable.covering_eq (h : Reachable c world s) {range : Cache.Range Rdap.IpNetwork}
    (hrange : range ∈ s.ranges.family isV4) :
    Network.covering range.value.startAddress range.value.endAddress = .ok range.network := by
  induction h with
  | fresh now => cases isV4 <;> cases hrange
  | step _ e ih =>
    cases e with
    | advance milliseconds => exact ih hrange
    | execute q ignoreCache =>
      rcases mem_family_execute hrange with hold | ⟨answer, -, hallocation, -⟩
      · exact ih hold
      · obtain ⟨-, -, -, hcovering⟩ := object_of_allocationOf hallocation
        exact hcovering

theorem Task.run_of_searched {r : Resolution (List Item)} {missing : Option Cause}
    (hservice : t.service c = .resolve r missing) (h : Event.searched (some n) ∈ r.run.events world s) :
    missing = none ∧ ∃ target range, Target.parse? t.text = some target ∧ target.around? s = some range ∧
      range.network = n ∧ r.run.run world s = (some (.ok [itemOf t range.value]), target.afterSearch s) := by
  rcases asksOnly_of_service hservice with hr | ⟨-, -, rfl, rfl⟩
  · obtain ⟨request, hasked⟩ := hr.mem_events h
    cases hasked
  · obtain ⟨target, range, hparse, haround, hn⟩ := found_of_searched h
    exact ⟨rfl, target, range, hparse, haround, hn, run_resolve_found hparse haround⟩

theorem Task.run_serve_of_searched (h : Event.searched (some n) ∈ (t.serve (t.service c)).events world s) :
    ∃ target range, Target.parse? t.text = some target ∧ target.around? s = some range ∧ range.network = n ∧
      ((t.serve (t.service c)).run world s).1 = some (.ok [itemOf t range.value]) ∧
      ((t.serve (t.service c)).run world s).2.requests = s.requests := by
  rcases serve_cases c world t s with ⟨o, -, -, hevents⟩ | ⟨m, -, -, hevents⟩ | ⟨r, missing, o, -, -, -, hevents⟩ |
    ⟨r, missing, s', hservice, -, hrun, -, -, hevents⟩ |
    ⟨r, missing, result, s', hservice, -, hrun, -, -, hserve, hevents⟩
  · simp [hevents] at h
  · simp [hevents] at h
  · simp [hevents] at h
  · rw [hevents] at h
    obtain ⟨-, target, range, -, -, -, hfound⟩ := run_of_searched hservice (by simpa using h)
    rw [hfound] at hrun
    cases hrun
  · have hsearched : Event.searched (some n) ∈ r.run.events world (t.afterLookup s) := by
      rw [hevents] at h
      split at h <;> simpa using h
    obtain ⟨rfl, target, range, hparse, haround, hn, hfound⟩ := run_of_searched hservice hsearched
    rw [hfound] at hrun
    cases hrun
    rw [hserve]
    exact ⟨target, range, hparse, haround, hn, rfl, rfl⟩

/-- In every history a search for an address that a remembered allocation answers shows an allocation whose two ends
are of the family of the address, and every network that holds both ends holds the address. In particular the address
lies between the ends when these are the first and the last address of a network. -/
theorem local_search_sound (h : Reachable c world s) (htype : ItemType.ofName? q.type = some .ipNetwork)
    (ha : Address.parse? q.text = some a)
    (hlocal : Event.searched (some n) ∈ (execute c q ignoreCache).events world s) :
    ∃ item start stop, ((execute c q ignoreCache).run world s).1 = some (.ok [item]) ∧
      ((execute c q ignoreCache).run world s).2.requests = s.requests ∧
      item.address? "startAddress" = some start ∧ item.address? "endAddress" = some stop ∧
      start.isV4 = a.unmap.isV4 ∧ stop.isV4 = a.unmap.isV4 ∧
      (∀ m : Network, start.mask m.length = m.base → stop.mask m.length = m.base →
        a.unmap.mask m.length = m.base ∧ m.base.toWord ≤ a.unmap.toWord ∧ a.unmap.toWord ≤ m.last.toWord) ∧
      ((∃ m : Network, start = m.base ∧ stop = m.last) →
        start.toWord ≤ a.unmap.toWord ∧ a.unmap.toWord ≤ stop.toWord) := by
  rw [execute_known c htype] at hlocal ⊢
  obtain ⟨target, range, hparse, hr, -, hrun, hrequests⟩ := Task.run_serve_of_searched hlocal
  have htarget : target = .address a := by
    simp only [Target.parse?, Task.ofQuery, ha, Option.some.injEq] at hparse
    exact hparse.symm
  subst htarget
  obtain ⟨hmem, -, hwithin⟩ := Cache.Ranges.winner?_spec hr
  obtain ⟨start, stop, hstart, hstop, hfamily, hfirst, -, hgreatest⟩ := Network.covering_spec (h.covering_eq hmem)
  have hmask : a.unmap.mask range.network.length = range.network.base := by
    simp only [Target.isWithin, Network.contains, Address.unmap_unmap, Bool.and_eq_true, beq_iff_eq] at hwithin
    exact hwithin.2
  have hshared : a.unmap.mask range.network.length = start.mask range.network.length := hmask.trans hfirst.symm
  have hstartFamily : start.isV4 = a.unmap.isV4 := (Address.isV4_eq_of_mask_eq hshared).symm
  have hbetween : ∀ m : Network, start.mask m.length = m.base → stop.mask m.length = m.base →
      a.unmap.mask m.length = m.base ∧ m.base.toWord ≤ a.unmap.toWord ∧ a.unmap.toWord ≤ m.last.toWord := by
    intro m hm hm'
    have hwidth : m.length ≤ start.width := by
      rw [← Address.width_mask start m.length, hm]
      exact m.length_le
    have hle : m.length ≤ range.network.length := hgreatest m.length hwidth (hm.trans hm'.symm)
    have hheld : a.unmap.mask m.length = m.base := (Address.mask_eq_mask_of_le hshared hle).trans hm
    exact ⟨hheld, Network.between_of_mask hheld⟩
  have hshowsStart : (itemOf (.ofQuery c .ipNetwork q ignoreCache) range.value).address? "startAddress" = some start :=
    Item.address?_eq (Rdap.get?_startAddress _ (Network.ne_empty_of_readEnd hstart)) hstart
  have hshowsStop : (itemOf (.ofQuery c .ipNetwork q ignoreCache) range.value).address? "endAddress" = some stop :=
    Item.address?_eq (Rdap.get?_endAddress _ (Network.ne_empty_of_readEnd hstop)) hstop
  refine ⟨_, start, stop, hrun, hrequests, hshowsStart, hshowsStop, hstartFamily, hfamily ▸ hstartFamily, hbetween,
    ?_⟩
  rintro ⟨m, rfl, rfl⟩
  exact (hbetween m m.masked m.mask_last).2

/-- An address written as an IPv4-mapped one is found in an aligned IPv4 allocation. -/
theorem local_search_mapped :
    let world := (Client.ofAllocation { startAddress := "1.1.1.0", endAddress := " 1.1.1.255" }).world
    let s := after {} world [.execute ⟨"rdap-ip-network", .search, "1.1.1.1", "global"⟩ false] {}
    let q : Query := ⟨"rdap-ip-network", .search, "::ffff:1.1.1.2", "global"⟩
    let a := Address.v6 0xFFFF01010102#128
    Reachable {} world s ∧ Address.parse? q.text = some a ∧
      Event.searched (Network.parse "1.1.1.0/24").toOption ∈ (execute {} q true).events world s ∧
      ∃ item start stop, ((execute {} q true).run world s).1 = some (.ok [item]) ∧
        item.address? "startAddress" = some start ∧ item.address? "endAddress" = some stop ∧
        start.isV4 = a.unmap.isV4 ∧ stop.isV4 = a.unmap.isV4 ∧
        ((∃ m : Network, start = m.base ∧ stop = m.last) →
          start.toWord ≤ a.unmap.toWord ∧ a.unmap.toWord ≤ stop.toWord) := by
  intro world s q a
  have hs : Reachable {} world s := (Reachable.fresh 0).after _
  have ha : Address.parse? q.text = some a := by decide +kernel
  have hnetwork : (Network.parse "1.1.1.0/24").toOption = some ⟨.v4 0x01010100#32, 24, by decide, by decide⟩ := by
    decide +kernel
  have hlocal : Event.searched (Network.parse "1.1.1.0/24").toOption ∈ (execute {} q true).events world s := by
    decide +kernel
  rw [hnetwork] at hlocal ⊢
  obtain ⟨item, start, stop, hrun, -, hstart, hstop, hstartFamily, hstopFamily, -, hbetween⟩ :=
    local_search_sound hs (by decide) ha hlocal
  exact ⟨hs, ha, hlocal, item, start, stop, hrun, hstart, hstop, hstartFamily, hstopFamily, hbetween⟩

/-- An allocation that is not aligned answers for an address before its first. -/
theorem local_search_outside :
    let world := (Client.ofAllocation { startAddress := "1.1.1.5", endAddress := "1.1.1.6" }).world
    let s := after {} world [.execute ⟨"rdap-ip-network", .search, "1.1.1.5", "global"⟩ false] {}
    let q : Query := ⟨"rdap-ip-network", .search, "1.1.1.4", "global"⟩
    Reachable {} world s ∧ Address.parse? q.text = some (.v4 0x01010104#32) ∧
      Event.searched (Network.parse "1.1.1.4/30").toOption ∈ (execute {} q false).events world s ∧
      ((execute {} q false).run world s).2.requests = s.requests ∧
      ∃ item, ((execute {} q false).run world s).1 = some (.ok [item]) ∧
        item.address? "startAddress" = some (.v4 0x01010105#32) ∧
        ¬ (Address.v4 0x01010105#32).toWord ≤ (Address.v4 0x01010104#32).unmap.toWord := by
  intro world s q
  have hs : Reachable {} world s := (Reachable.fresh 0).after _
  have hshown : ((execute {} q false).run world s).1.map (fun o => o.toOption.map
      (List.map fun item => item.address? "startAddress")) = some (some [some (.v4 0x01010105#32)]) := by
    decide +kernel
  obtain ⟨o, ho, hitems⟩ := Option.map_eq_some_iff.mp hshown
  refine ⟨hs, by decide +kernel, by decide +kernel, by decide +kernel, ?_⟩
  cases o with
  | error e => cases hitems
  | ok items =>
    simp only [Except.toOption, Option.map_some, Option.some.injEq] at hitems
    obtain ⟨item, hitem, hstart⟩ := List.map_eq_singleton_iff.mp hitems
    rw [hitem] at ho
    exact ⟨item, ho, hstart, by decide⟩

end AssetGraph.Resolve

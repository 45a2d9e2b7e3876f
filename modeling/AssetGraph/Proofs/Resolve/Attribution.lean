import AssetGraph.Proofs.Resolve.Outcomes

/-!
# Where outcomes come from

What is kept under an identity is of the type and the scope of the identity, and an error that is kept names them and
its source. So does every error that a query for a known type is answered with, whether or not it was kept.
-/
namespace AssetGraph.Resolve

variable {c : Config} {world : World} {s : State}

/-- In every history what is kept under an identity comes from the source of its type, in the global scope: either items
of that type and scope, at most one of them where one was to be got, or an absence or a failed exchange that names the
scope, the type and the source. Every error that a query for a known type is answered with names them as well, and every
item is of that type. -/
theorem kept_and_attributed (h : Reachable c world s) :
    (∀ key entry, (key, entry) ∈ s.results.entries →
      ∃ type, ItemType.ofName? key.type = some type ∧ key.source = type.source ∧ key.scope = globalScope ∧
        ((∃ items, entry.outcome = .ok items ∧ (∀ item ∈ items, item.type = key.type ∧ item.scope = globalScope) ∧
            (key.method = .get → items.length ≤ 1)) ∨
          ∃ e, entry.outcome = .error e ∧ (e.kind = .notFound ∨ e.kind = .exchangeFailed) ∧
            e.scope = some key.scope ∧ e.itemType = some key.type ∧ e.source = some key.source)) ∧
    ∀ q type ignoreCache, ItemType.ofName? q.type = some type →
      (∀ e, ((execute c q ignoreCache).run world s).1 = some (.error e) →
        e.scope = some q.scope ∧ e.itemType = some q.type ∧ e.source = some type.source) ∧
      ∀ items, ((execute c q ignoreCache).run world s).1 = some (.ok items) → ∀ item ∈ items, item.type = q.type := by
  refine ⟨fun key entry hentry => ?_, fun q type ignoreCache htype =>
    ⟨fun e he => ?_, fun items hitems item hitem => ?_⟩⟩
  · have hfound := h.resultsSound.mem_entries_iff.mp hentry
    have hcacheable := h.resultsSound.isCacheable_of_find? hfound
    obtain ⟨type, htype, hsource, hscope, hbefits⟩ := h.befits_kept hfound
    have hname := ItemType.name_of_ofName? htype
    refine ⟨type, htype, hsource, hscope, ?_⟩
    cases houtcome : entry.outcome with
    | ok items =>
      rw [houtcome, hscope] at hbefits
      refine .inl ⟨items, rfl, fun item hitem => ?_, hbefits.single⟩
      exact hname ▸ of_shows (hbefits.shows item hitem)
    | error e =>
      rw [houtcome] at hbefits hcacheable
      exact .inr ⟨e, rfl, kind_of_isCacheable hcacheable, hbefits.scope, hname ▸ hbefits.itemType,
        hsource ▸ hbefits.source⟩
  · have hbefits : IsAttributed type q.scope e := h.befits_execute htype he
    exact ⟨hbefits.scope, ItemType.name_of_ofName? htype ▸ hbefits.itemType, hbefits.source⟩
  · have hbefits : Fits type q.method q.scope items := h.befits_execute htype hitems
    rw [scope_of_ok htype hitems] at hbefits
    exact (of_shows (hbefits.shows item hitem)).1.trans (ItemType.name_of_ofName? htype)

/-- An absence that was kept, and that is replayed, names where it comes from. -/
theorem kept_and_attributed_absent :
    let world : World := fun _ r =>
      match r with
      | .rdap _ => some (.error ⟨.objectDoesNotExist, "404"⟩)
      | _ => none
    let q : Query := ⟨"rdap-asn", .get, "AS64512", "global"⟩
    let s := after {} world [.execute q false] {}
    Reachable {} world s ∧ s.results.size = 1 ∧
      (∀ key entry, (key, entry) ∈ s.results.entries → key.scope = "global") ∧
      ∃ e, ((execute {} q false).run world s).1 = some (.error e) ∧ e.kind = .notFound ∧
        e.scope = some "global" ∧ e.itemType = some "rdap-asn" ∧ e.source = some "rdap" := by
  intro world q s
  have hs : Reachable {} world s := (Reachable.fresh 0).after _
  obtain ⟨hkept, hanswered⟩ := kept_and_attributed hs
  have hrun : ((execute {} q false).run world s).1 =
      some (.error ((Cause.registry ⟨.objectDoesNotExist, "404"⟩).within .asn "global")) := by
    rfl
  refine ⟨hs, by decide +kernel, fun key entry hentry => ?_, _, hrun, rfl, (hanswered q .asn false rfl).1 _ hrun⟩
  obtain ⟨-, -, -, hscope, -⟩ := hkept key entry hentry
  exact hscope

end AssetGraph.Resolve

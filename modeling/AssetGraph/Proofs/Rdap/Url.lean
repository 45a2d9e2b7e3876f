import AssetGraph.Proofs.Text.Cut
import AssetGraph.Rdap.Url

/-!
# The grammar of registry URLs

A registry URL is the root of a server, the word for a kind of object and a query, with slashes between them. It splits in
one way only, for neither the word nor the query holds a slash. A URL joined from such parts is read back, except where the
slashes that were dropped from the end of the root were those of its scheme.
-/
namespace AssetGraph.Rdap

variable {text root segment query : String} {kind : Kind} {url : Url}

namespace Kind

theorem ofSegment?_eq_some_iff : ofSegment? segment = some kind ↔ kind.segment = segment := by
  constructor
  · intro h
    simpa using List.find?_some h
  · rintro rfl
    cases kind <;> rfl

theorem slash_notMem_segment (kind : Kind) : '/' ∉ kind.segment.toList := by
  cases kind <;> decide

theorem exists_segment_iff :
    (∃ kind : Kind, kind.segment = segment) ↔ segment ∈ ["ip", "nameserver", "entity", "autnum", "domain"] := by
  constructor
  · rintro ⟨kind, rfl⟩
    cases kind <;> decide
  · intro h
    simp only [List.mem_cons, List.not_mem_nil, or_false] at h
    rcases h with rfl | rfl | rfl | rfl | rfl
    · exact ⟨ipNetwork, rfl⟩
    · exact ⟨nameserver, rfl⟩
    · exact ⟨entity, rfl⟩
    · exact ⟨autnum, rfl⟩
    · exact ⟨domain, rfl⟩

end Kind

namespace Url

def slashes (count : Nat) : String := String.ofList (List.replicate count '/')

/-- Whether a text can be the root of a server: a scheme and at least one more character, none of them a line feed. -/
def IsServerRoot (root : String) : Prop :=
  ∃ scheme ∈ ["http://", "https://"], ∃ rest, rest ≠ "" ∧ '\n' ∉ rest.toList ∧ root = scheme ++ rest

structure IsQuery (query : String) : Prop where
  ne_empty : query ≠ ""
  no_slash : '/' ∉ query.toList

/-- Whether a text is made of a root, a word for a kind of object and a query. -/
structure Splits (text root segment query : String) : Prop where
  eq : text = root ++ "/" ++ segment ++ "/" ++ query
  isRoot : IsServerRoot root
  isSegment : segment ∈ ["ip", "nameserver", "entity", "autnum", "domain"]
  isQuery : IsQuery query

theorem isRoot_append {scheme : String} (hscheme : scheme ∈ ["http://", "https://"]) (rest : List Char) :
    isRoot (scheme.toList ++ rest) = (!rest.isEmpty && !rest.contains '\n') := by
  have hsecure : Text.dropStart? "https://".toList ("https://".toList ++ rest) = some rest :=
    Text.dropStart?_eq_some_iff.mpr rfl
  have hplain : Text.dropStart? "http://".toList ("http://".toList ++ rest) = some rest :=
    Text.dropStart?_eq_some_iff.mpr rfl
  have hother : Text.dropStart? "https://".toList ("http://".toList ++ rest) = none := rfl
  simp only [List.mem_cons, List.not_mem_nil, or_false] at hscheme
  rcases hscheme with rfl | rfl
  · simp only [isRoot, hother, hplain]
    rfl
  · simp only [isRoot, hsecure]
    rfl

theorem exists_scheme_of_isRoot {cs : List Char} (h : isRoot cs = true) :
    ∃ scheme ∈ ["http://", "https://"], ∃ rest, cs = scheme.toList ++ rest := by
  unfold isRoot at h
  cases hsecure : Text.dropStart? "https://".toList cs with
  | some rest => exact ⟨"https://", by decide, rest, Text.dropStart?_eq_some_iff.mp hsecure⟩
  | none =>
    cases hplain : Text.dropStart? "http://".toList cs with
    | some rest => exact ⟨"http://", by decide, rest, Text.dropStart?_eq_some_iff.mp hplain⟩
    | none =>
      rw [hsecure, hplain] at h
      cases h

theorem isRoot_iff : isRoot root.toList = true ↔ IsServerRoot root := by
  constructor
  · intro h
    obtain ⟨scheme, hscheme, rest, hroot⟩ := exists_scheme_of_isRoot h
    rw [hroot, isRoot_append hscheme] at h
    refine ⟨scheme, hscheme, String.ofList rest, ?_, ?_, ?_⟩
    · rintro hempty
      rw [String.ofList_eq_empty_iff.mp hempty] at h
      cases h
    · rw [String.toList_ofList]
      simpa using (Bool.and_eq_true_iff.mp h).2
    · rw [← String.toList_inj, String.toList_append, String.toList_ofList, hroot]
  · rintro ⟨scheme, hscheme, rest, hne, hline, rfl⟩
    rw [String.toList_append, isRoot_append hscheme]
    simpa [hline] using hne

theorem parse?_eq (text : String) :
    parse? text = (Text.splitLast? '/' text.toList).bind fun (front, query) =>
      (Text.splitLast? '/' front).bind fun (root, segment) =>
        (Kind.ofSegment? (String.ofList segment)).bind fun kind =>
          if isRoot root ∧ query ≠ [] then some ⟨String.ofList root, kind, String.ofList query⟩ else none := rfl

/-- A text with a query and a word behind its last slashes is read when what is before them is a root. -/
theorem parse?_joined (root : String) (kind : Kind) (hquery : IsQuery query) :
    parse? (root ++ "/" ++ kind.segment ++ "/" ++ query) = if isRoot root.toList then some ⟨root, kind, query⟩ else none := by
  have hcut : (root ++ "/" ++ kind.segment ++ "/" ++ query).toList
      = (root.toList ++ '/' :: kind.segment.toList) ++ '/' :: query.toList := by
    simp
  have hword : Kind.ofSegment? (String.ofList kind.segment.toList) = some kind := by
    rw [String.ofList_toList]
    exact Kind.ofSegment?_eq_some_iff.mpr rfl
  rw [parse?_eq, hcut, Text.splitLast?_append hquery.no_slash]
  dsimp only [Option.bind_some]
  rw [Text.splitLast?_append kind.slash_notMem_segment]
  dsimp only [Option.bind_some]
  rw [hword]
  dsimp only [Option.bind_some]
  rw [String.ofList_toList, String.ofList_toList]
  simp [hquery.ne_empty]

theorem parse?_eq_some_iff : parse? text = some url ↔ Splits text url.root url.kind.segment url.query := by
  constructor
  · intro h
    rw [parse?_eq] at h
    obtain ⟨⟨front, query⟩, hback, h⟩ := Option.bind_eq_some_iff.mp h
    obtain ⟨⟨root, segment⟩, hfront, h⟩ := Option.bind_eq_some_iff.mp h
    obtain ⟨kind, hkind, h⟩ := Option.bind_eq_some_iff.mp h
    obtain ⟨htext, hquery⟩ := Text.splitLast?_eq_some_iff.mp hback
    obtain ⟨hcut, -⟩ := Text.splitLast?_eq_some_iff.mp hfront
    have hword := Kind.ofSegment?_eq_some_iff.mp hkind
    by_cases hparts : isRoot root ∧ query ≠ []
    · rw [if_pos hparts] at h
      cases h
      refine ⟨?_, ?_, Kind.exists_segment_iff.mp ⟨kind, rfl⟩, ?_, ?_⟩
      · rw [← String.toList_inj, htext, hcut, hword]
        simp
      · rw [← isRoot_iff, String.toList_ofList]
        exact hparts.1
      · exact fun hempty => hparts.2 (String.ofList_eq_empty_iff.mp hempty)
      · rwa [String.toList_ofList]
    · rw [if_neg hparts] at h
      cases h
  · intro h
    rw [h.eq, parse?_joined _ _ h.isQuery, if_pos (isRoot_iff.mpr h.isRoot)]

theorem Splits.parse?_eq (h : Splits text root segment query) :
    ∃ kind : Kind, kind.segment = segment ∧ parse? text = some ⟨root, kind, query⟩ := by
  obtain ⟨kind, rfl⟩ := Kind.exists_segment_iff.mpr h.isSegment
  exact ⟨kind, rfl, parse?_eq_some_iff.mpr h⟩

theorem Splits.unique {root' segment' query' : String} (h : Splits text root segment query)
    (h' : Splits text root' segment' query') : root' = root ∧ segment' = segment ∧ query' = query := by
  obtain ⟨kind, rfl, hparse⟩ := h.parse?_eq
  obtain ⟨kind', rfl, hparse'⟩ := h'.parse?_eq
  cases hparse.symm.trans hparse'
  exact ⟨rfl, rfl, rfl⟩

theorem not_isServerRoot_of_bare (h : root ∈ ["http:", "https:"]) : ¬ IsServerRoot root := by
  rw [← isRoot_iff]
  simp only [List.mem_cons, List.not_mem_nil, or_false] at h
  rcases h with rfl | rfl <;> decide

theorem bare_of_scheme {count : Nat} {scheme : String} (hscheme : scheme ∈ ["http://", "https://"])
    (hlast : root.toList.getLast? ≠ some '/') (hcut : scheme.toList = root.toList ++ List.replicate count '/') :
    root ∈ ["http:", "https:"] := by
  have hroot := Text.dropAllFinal_append_replicate hlast count
  rw [← hcut] at hroot
  simp only [List.mem_cons, List.not_mem_nil, or_false] at hscheme ⊢
  rcases hscheme with rfl | rfl
  · exact .inl (String.toList_inj.mp hroot.symm)
  · exact .inr (String.toList_inj.mp hroot.symm)

/-- Without its final slashes a root is still one, unless they were those of its scheme. -/
theorem isServerRoot_trimmed_iff {count : Nat} (h : IsServerRoot (root ++ slashes count))
    (hlast : root.toList.getLast? ≠ some '/') : IsServerRoot root ↔ root ∉ ["http:", "https:"] := by
  refine ⟨fun hroot hbare => not_isServerRoot_of_bare hbare hroot, fun hbare => ?_⟩
  obtain ⟨scheme, hscheme, rest, hne, hline, hparts⟩ := h
  rw [← String.toList_inj, String.toList_append, String.toList_append, slashes, String.toList_ofList] at hparts
  rcases List.append_eq_append_iff.mp hparts with ⟨cut, hcut, hslashes⟩ | ⟨kept, hkept, hrest⟩
  · have hall : ∀ c ∈ cut, c = '/' := fun c hc =>
      List.eq_of_mem_replicate (hslashes ▸ List.mem_append_left _ hc)
    rw [List.eq_replicate_of_mem hall] at hcut
    exact absurd (bare_of_scheme hscheme hlast hcut) hbare
  · refine ⟨scheme, hscheme, String.ofList kept, fun hempty => ?_, ?_, ?_⟩
    · rw [String.ofList_eq_empty_iff.mp hempty, List.append_nil] at hkept
      rw [hkept] at hlast
      simp only [List.mem_cons, List.not_mem_nil, or_false] at hscheme
      rcases hscheme with rfl | rfl <;> exact hlast rfl
    · rw [String.toList_ofList]
      exact fun hmem => hline (hrest ▸ List.mem_append_left _ hmem)
    · rw [← String.toList_inj, String.toList_append, String.toList_ofList, hkept]

/-- A URL joined on a server is read back with the root of that server without its final slashes. -/
theorem parse?_join {count : Nat} (h : parse? text = some url) (hroot : url.root = root ++ slashes count)
    (hlast : root.toList.getLast? ≠ some '/') (kind : Kind) (hquery : IsQuery query) :
    parse? (url.join kind query) = if root ∈ ["http:", "https:"] then none else some ⟨root, kind, query⟩ := by
  have hjoin : url.join kind query = root ++ "/" ++ kind.segment ++ "/" ++ query := by
    rw [join, hroot, String.toList_append, slashes, String.toList_ofList, Text.dropAllFinal_append_replicate hlast,
      String.ofList_toList]
  have hserver := (parse?_eq_some_iff.mp h).isRoot
  rw [hroot] at hserver
  have htrimmed := isServerRoot_trimmed_iff hserver hlast
  rw [hjoin, parse?_joined root kind hquery]
  by_cases hbare : root ∈ ["http:", "https:"]
  · rw [if_pos hbare, if_neg (mt isRoot_iff.mp (not_isServerRoot_of_bare hbare))]
  · rw [if_neg hbare, if_pos (isRoot_iff.mpr (htrimmed.mpr hbare))]

theorem exists_trimmed (root : String) :
    ∃ trimmed count, root = trimmed ++ slashes count ∧ trimmed.toList.getLast? ≠ some '/' := by
  obtain ⟨count, hroot, hlast⟩ := Text.exists_dropAllFinal '/' root.toList
  refine ⟨String.ofList (Text.dropAllFinal '/' root.toList), count, ?_, ?_⟩
  · rw [← String.toList_inj, String.toList_append, slashes, String.toList_ofList, String.toList_ofList]
    exact hroot
  · rwa [String.toList_ofList]

end Url
end AssetGraph.Rdap

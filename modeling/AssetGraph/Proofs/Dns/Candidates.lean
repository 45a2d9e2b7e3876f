import AssetGraph.Dns.Name
import AssetGraph.Proofs.Text.Cut

/-!
# The names to try for the domain of a host

The candidates of a name are what is left of its labels when the first ones are dropped, as long as there are two. Each
candidate has the rest of the list as its own candidates. Points that stand alone change nothing: neither before nor behind a
name, nor beside a point inside it.
-/
namespace AssetGraph.Dns

/-- The labels between the points of a name, empty ones left out. -/
def properLabels (name : String) : List String :=
  ((name.toList.splitOn '.').filter (· ≠ [])).map String.ofList

def points (count : Nat) : String := String.ofList (List.replicate count '.')

variable {name label : String} {ls : List String}

theorem properLabels_empty : properLabels "" = [] := by decide

/-- A point parts the labels before it from those behind it. -/
theorem properLabels_append (before after : String) :
    properLabels (before ++ "." ++ after) = properLabels before ++ properLabels after := by
  have hcut : (before ++ "." ++ after).toList = before.toList ++ '.' :: after.toList := by
    simp [String.toList_append]
  simp only [properLabels]
  rw [hcut, List.splitOn_append_cons_self, List.filter_append, List.map_append]

theorem points_succ (count : Nat) : points (count + 1) = "." ++ points count := by
  rw [← String.toList_inj]
  simp [points, List.replicate_succ]

theorem properLabels_points_append (count : Nat) (name : String) : properLabels (points count ++ name) = properLabels name := by
  induction count with
  | zero => exact congrArg properLabels (String.empty_append)
  | succ count ih =>
    have hstart := properLabels_append "" (points count ++ name)
    rw [String.empty_append, properLabels_empty, List.nil_append, ih] at hstart
    rw [points_succ, String.append_assoc, hstart]

theorem properLabels_append_points (name : String) (count : Nat) : properLabels (name ++ points count) = properLabels name := by
  cases count with
  | zero => exact congrArg properLabels String.append_empty
  | succ count =>
    have hnone := properLabels_points_append count ""
    rw [String.append_empty, properLabels_empty] at hnone
    rw [points_succ, ← String.append_assoc, properLabels_append, hnone, List.append_nil]

/-- Of several points in a row one is as good as all. -/
theorem properLabels_points_between (before after : String) (more : Nat) :
    properLabels (before ++ points (more + 1) ++ after) = properLabels (before ++ "." ++ after) := by
  rw [points_succ, ← String.append_assoc, String.append_assoc, properLabels_append, properLabels_points_append,
    properLabels_append]

structure IsLabel (label : String) : Prop where
  ne_empty : label ≠ ""
  no_point : '.' ∉ label.toList

theorem isLabel_of_mem (h : label ∈ properLabels name) : IsLabel label := by
  obtain ⟨part, hpart, rfl⟩ := List.mem_map.mp h
  obtain ⟨hcut, hproper⟩ := List.mem_filter.mp hpart
  constructor
  · rw [ne_eq, String.ofList_eq_empty_iff]
    exact of_decide_eq_true hproper
  · rw [String.toList_ofList]
    exact Text.notMem_of_mem_splitOn hcut

theorem labels_eq (name : String) : labels name = properLabels name := by
  rw [labels, properLabels, Text.splitAll_eq_splitOn]
  rcases Text.dropFinal_cases '.' name.toList with hkept | hdropped
  · rw [← hkept]
  · have hcut : name.toList.splitOn '.' = (Text.dropFinal '.' name.toList).splitOn '.' ++ [[]] := by
      conv => lhs; rw [hdropped]
      exact List.splitOn_append_cons_self ..
    rw [hcut, List.filter_append]
    simp

theorem properLabels_join (h : ∀ label ∈ ls, IsLabel label) : properLabels (Text.join "." ls) = ls := by
  by_cases hne : ls = []
  · rw [hne]
    exact properLabels_empty
  · have hpoint : ".".toList = ['.'] := by decide
    have hcut := Text.splitAll_join hpoint hne fun label hlabel => (h label hlabel).no_point
    have hproper : (ls.map String.toList).filter (· ≠ []) = ls.map String.toList := by
      rw [List.filter_eq_self]
      intro part hpart
      obtain ⟨label, hlabel, rfl⟩ := List.mem_map.mp hpart
      exact decide_eq_true fun hnil => (h label hlabel).ne_empty (String.toList_eq_nil_iff.mp hnil)
    rw [properLabels, ← Text.splitAll_eq_splitOn, hcut, hproper, List.map_map]
    exact (List.map_congr_left fun label _ => String.ofList_toList).trans (List.map_id ls)

/-- The names to ask for start at each label but the last. -/
theorem suffixes_eq (ls : List String) :
    suffixes ls = (List.range (ls.length - 1)).map fun i => Text.join "." (ls.drop i) := by
  fun_induction suffixes ls with
  | case1 => rfl
  | case2 => rfl
  | case3 label next rest ih =>
    have hcount : (label :: next :: rest).length - 1 = (next :: rest).length - 1 + 1 := by simp
    rw [ih, hcount, List.range_succ_eq_map, List.map_cons, List.map_map]
    rfl

theorem suffixes_drop (ls : List String) (i : Nat) : suffixes (ls.drop i) = (suffixes ls).drop i := by
  apply List.ext_getElem
  · simp only [suffixes_eq, List.length_map, List.length_range, List.length_drop]
    omega
  · intro k _ _
    simp [suffixes_eq, List.drop_drop]

variable {i : Nat}

theorem length_candidates (name : String) : (candidates name).length = (properLabels name).length - 1 := by
  rw [candidates, labels_eq, suffixes_eq, List.length_map, List.length_range]

theorem getElem_candidates (h : i < (candidates name).length) :
    (candidates name)[i] = Text.join "." ((properLabels name).drop i) := by
  simp [candidates, labels_eq, suffixes_eq]

theorem properLabels_getElem (h : i < (candidates name).length) :
    properLabels (candidates name)[i] = (properLabels name).drop i := by
  rw [getElem_candidates]
  exact properLabels_join fun label hlabel => isLabel_of_mem (List.mem_of_mem_drop hlabel)

/-- A candidate has the candidates from its own place on. -/
theorem candidates_getElem (h : i < (candidates name).length) :
    candidates (candidates name)[i] = (candidates name).drop i := by
  rw [candidates, labels_eq, properLabels_getElem, suffixes_drop, ← labels_eq, ← candidates]

/-- Candidates differ, for each has fewer labels than the one before it. -/
theorem nodup_candidates (name : String) : (candidates name).Nodup := by
  refine List.pairwise_iff_getElem.mpr fun i j hi hj hij heq => ?_
  have hlabels := congrArg (fun candidate => (properLabels candidate).length) heq
  simp only [properLabels_getElem, List.length_drop] at hlabels
  have hcount := length_candidates name
  omega

theorem candidates_congr {other : String} (h : properLabels name = properLabels other) :
    candidates name = candidates other := by
  rw [candidates, candidates, labels_eq, labels_eq, h]

theorem two_le_length_properLabels {candidate : String} (h : candidate ∈ candidates name) :
    2 ≤ (properLabels candidate).length := by
  obtain ⟨i, hi, rfl⟩ := List.getElem_of_mem h
  have hcount := length_candidates name
  rw [properLabels_getElem, List.length_drop]
  omega

theorem notMem_candidates (h : label ∈ properLabels name) : label ∉ candidates name := by
  intro hcandidate
  have halone : ∀ other ∈ [label], IsLabel other := fun other hother => List.mem_singleton.mp hother ▸ isLabel_of_mem h
  have htwo := two_le_length_properLabels hcandidate
  have hone : properLabels label = [label] := properLabels_join halone
  rw [hone] at htwo
  exact Nat.not_succ_le_self 1 htwo

/-- The candidates of a name are its labels from each one on but the last, joined with points: one fewer than it has labels,
none of them a label alone. The candidates of a candidate are the list from its own place on. Points that no label stands
between make no difference. -/
theorem candidates_are_suffixes (name : String) :
    (candidates name).length = (properLabels name).length - 1 ∧
    (∀ i (h : i < (candidates name).length),
      (candidates name)[i] = ".".intercalate ((properLabels name).drop i) ∧
      properLabels (candidates name)[i] = (properLabels name).drop i ∧
      candidates (candidates name)[i] = (candidates name).drop i) ∧
    (∀ candidate ∈ candidates name, 2 ≤ (properLabels candidate).length) ∧
    (∀ label ∈ properLabels name, label ∉ candidates name) ∧
    (∀ leading trailing, candidates (points leading ++ name ++ points trailing) = candidates name) ∧
    ∀ before after more, candidates (before ++ points (more + 1) ++ after) = candidates (before ++ "." ++ after) := by
  refine ⟨length_candidates name, fun i h => ⟨?_, properLabels_getElem h, candidates_getElem h⟩,
    fun _ => two_le_length_properLabels, fun _ => notMem_candidates, fun leading trailing => ?_, fun before after more => ?_⟩
  · rw [getElem_candidates, Text.join_eq_intercalate]
  · apply candidates_congr
    rw [properLabels_append_points, properLabels_points_append]
  · exact candidates_congr (properLabels_points_between before after more)

/-- Of a name with points before, between and behind its labels the second candidate is the last, and is the only one of its
own. -/
theorem candidates_are_suffixes_pointed :
    ∃ h : 1 < (candidates "..a..co.uk..").length,
      candidates (candidates "..a..co.uk..")[1] = (candidates "..a..co.uk..").drop 1 ∧
      properLabels "..a..co.uk.." = ["a", "co", "uk"] ∧ "uk" ∉ candidates "..a..co.uk.." := by
  obtain ⟨hcount, hplaces, -, hnone, -⟩ := candidates_are_suffixes "..a..co.uk.."
  have hlabels : properLabels "..a..co.uk.." = ["a", "co", "uk"] := by decide +kernel
  have h : 1 < (candidates "..a..co.uk..").length := by
    rw [hcount, hlabels]
    decide
  exact ⟨h, (hplaces 1 h).2.2, hlabels, hnone "uk" (by rw [hlabels]; decide)⟩

end AssetGraph.Dns

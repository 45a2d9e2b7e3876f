/-!
# Cutting and joining text

Text is cut as a list of characters. `splitFirst?` and `splitLast?` cut at one separator, `splitAll`
at every one, and `join` puts pieces back together.
-/
namespace AssetGraph.Text

def splitFirst? (sep : Char) : List Char → Option (List Char × List Char)
  | [] => none
  | c :: rest =>
    if c = sep then some ([], rest)
    else (splitFirst? sep rest).map fun (before, after) => (c :: before, after)

def splitLast? (sep : Char) : List Char → Option (List Char × List Char)
  | [] => none
  | c :: rest =>
    match splitLast? sep rest with
    | some (before, after) => some (c :: before, after)
    | none => if c = sep then some ([], rest) else none

/-- All the parts between separators; one more than there are separators. -/
def splitAll (sep : Char) : List Char → List (List Char)
  | [] => [[]]
  | c :: rest =>
    if c = sep then [] :: splitAll sep rest
    else match splitAll sep rest with
      | [] => [[c]]
      | part :: parts => (c :: part) :: parts

def dropStart? : List Char → List Char → Option (List Char)
  | [], rest => some rest
  | _ :: _, [] => none
  | s :: start, c :: rest => if s = c then dropStart? start rest else none

def dropFinal (c : Char) : List Char → List Char
  | [] => []
  | [d] => if d = c then [] else [d]
  | d :: rest => d :: dropFinal c rest

def dropAllFinal (c : Char) (cs : List Char) : List Char :=
  (cs.reverse.dropWhile (· == c)).reverse

def join (sep : String) : List String → String
  | [] => ""
  | [part] => part
  | part :: parts => part ++ sep ++ join sep parts

/-- Lower case for the letters A to Z; every other character stays. -/
def asciiLower (s : String) : String :=
  String.ofList (s.toList.map Char.toLower)

/-- Cutting at the first separator loses only that separator. -/
theorem eq_of_splitFirst? {sep : Char} {cs before after : List Char}
    (h : splitFirst? sep cs = some (before, after)) :
    cs = before ++ sep :: after ∧ sep ∉ before := by
  induction cs generalizing before with
  | nil => simp [splitFirst?] at h
  | cons c rest ih =>
    by_cases hc : c = sep
    · simp [splitFirst?, hc] at h
      simp [h, hc]
    · simp only [splitFirst?, hc, if_false, Option.map_eq_some_iff, Prod.exists] at h
      obtain ⟨b, a, hb, heq⟩ := h
      cases heq
      obtain ⟨hr, hn⟩ := ih hb
      simp [hr, hn, Ne.symm hc]

/-- Cutting at the last separator loses only that separator. -/
theorem eq_of_splitLast? {sep : Char} {cs before after : List Char}
    (h : splitLast? sep cs = some (before, after)) : cs = before ++ sep :: after := by
  induction cs generalizing before with
  | nil => simp [splitLast?] at h
  | cons c rest ih =>
    rw [splitLast?] at h
    split at h
    · rename_i b a hb
      cases h
      simp [ih hb]
    · split at h
      · rename_i hc
        cases h
        simp [hc]
      · cases h

end AssetGraph.Text

import AssetGraph.Http.Target
import AssetGraph.Proofs.Text.Cut
import Mathlib.Data.List.Forall2
import Mathlib.Data.Option.Basic

/-!
# The grammar of web URLs

A web URL is a scheme, an authority and what is behind it. The authority ends at the first slash, question mark or hash. Its
host is behind the last `@`, in brackets or before the first colon. The scheme is `http` or `https` in large or small letters,
but the long s, which is a case of `s` and no letter of ASCII, is let through as well and stays as it is.
-/
namespace AssetGraph.Http

variable {word taken rest cs scheme authority hostPort host : List Char} {text : String} {words : List String} {t : Target}

/-- The words that a scheme becomes when the letters of ASCII are made small. -/
def schemes : List String := ["http", "https", "httpſ"]

def wordOf (scheme : List Char) : String := Text.asciiLower (String.ofList scheme)

/-- Whether a text starts with a scheme and an authority, and the authority goes as far as it can. -/
structure Starts (text : String) (scheme authority : List Char) : Prop where
  eq : ∃ rest, text.toList = scheme ++ "://".toList ++ authority ++ rest ∧ ∀ c, rest.head? = some c → c ∈ ['/', '?', '#']
  inside : ∀ c ∈ authority, c ∉ ['/', '?', '#']

def IsHostPort (authority hostPort : List Char) : Prop :=
  '@' ∉ hostPort ∧ (authority = hostPort ∨ ∃ user, authority = user ++ '@' :: hostPort)

/-- Where the host is in the part behind the user: in brackets, or before the first colon. -/
inductive IsHost : List Char → List Char → Prop
  | bracketed {host rest : List Char} (hinside : ']' ∉ host) : IsHost ('[' :: (host ++ ']' :: rest)) host
  | plain {host rest : List Char} (hbracket : (host ++ rest).head? ≠ some '[') (hinside : ':' ∉ host)
      (hrest : ∀ c, rest.head? = some c → c = ':') : IsHost (host ++ rest) host

def HasHost (authority host : List Char) : Prop := ∃ hostPort, IsHostPort authority hostPort ∧ IsHost hostPort host

/-- Whether a text starts with a scheme of one of some words and an authority with a host. -/
def IsWebUrl (words : List String) (text : String) : Prop :=
  ∃ scheme authority host, Starts text scheme authority ∧ wordOf scheme ∈ words ∧ HasHost authority host ∧ host ≠ []

def AreCases (word taken : List Char) : Prop := List.Forall₂ (fun letter c => isCaseOf letter c = true) word taken

theorem takeWord?_append (h : AreCases word taken) (more rest : List Char) :
    takeWord? (word ++ more) (taken ++ rest) = (takeWord? more rest).map fun (others, rest) => (taken ++ others, rest) := by
  induction h with
  | nil => simp
  | cons hfirst _ ih =>
    rw [List.cons_append, List.cons_append, takeWord?, if_pos hfirst, ih, Option.map_map]
    rfl

theorem of_takeWord? (h : takeWord? word cs = some (taken, rest)) : AreCases word taken ∧ cs = taken ++ rest := by
  induction word generalizing cs taken with
  | nil =>
    cases h
    exact ⟨.nil, rfl⟩
  | cons letter word ih =>
    cases cs with
    | nil => cases h
    | cons c cs =>
      rw [takeWord?] at h
      split at h
      · rename_i hfirst
        obtain ⟨⟨others, _⟩, hothers, heq⟩ := Option.map_eq_some_iff.mp h
        cases heq
        obtain ⟨hcases, rfl⟩ := ih hothers
        exact ⟨.cons hfirst hcases, rfl⟩
      · cases h

theorem takeWord?_eq_some_iff : takeWord? word cs = some (taken, rest) ↔ AreCases word taken ∧ cs = taken ++ rest := by
  constructor
  · exact of_takeWord?
  · rintro ⟨hcases, rfl⟩
    have hnothing := takeWord?_append hcases [] rest
    rw [List.append_nil] at hnothing
    rw [hnothing, takeWord?, Option.map_some]
    dsimp only
    rw [List.append_nil]

theorem isCaseOf_iff {letter c : Char} : isCaseOf letter c = true ↔ c.toLower = letter ∨ letter = 's' ∧ c = 'ſ' := by
  simp [isCaseOf]

theorem toLower_eq_long_s_iff {c : Char} : c.toLower = 'ſ' ↔ c = 'ſ' := by
  constructor
  · intro h
    unfold Char.toLower at h
    split at h
    · rename_i hletter
      have hlast : c.val.toNat ≤ 90 := UInt32.le_iff_toNat_le.mp hletter.2
      have hcode : (c.val.toNat + 32) % 4294967296 = 383 := congrArg (UInt32.toNat ∘ Char.val) h
      omega
    · exact h
  · rintro rfl
    decide

/-- The cases of a word without an s are the texts that the word is the small letters of. -/
theorem areCases_iff (h : 's' ∉ word) : AreCases word cs ↔ cs.map Char.toLower = word := by
  induction word generalizing cs with
  | nil => rw [AreCases, List.forall₂_nil_left_iff, List.map_eq_nil_iff]
  | cons letter word ih =>
    rw [List.mem_cons, not_or] at h
    cases cs with
    | nil => exact iff_of_false nofun nofun
    | cons c cs =>
      rw [AreCases, List.forall₂_cons, isCaseOf_iff, or_iff_left fun hs => h.1 hs.1.symm, List.map_cons, List.cons.injEq]
      exact and_congr_right fun _ => ih h.2

theorem areCases_s_iff : AreCases ['s'] cs ↔ cs.map Char.toLower = ['s'] ∨ cs.map Char.toLower = ['ſ'] := by
  rcases cs with _ | ⟨c, _ | ⟨d, rest⟩⟩
  · exact iff_of_false nofun (by simp)
  · simp [AreCases, isCaseOf_iff, toLower_eq_long_s_iff]
  · exact iff_of_false (fun h => nomatch h) (by simp)

theorem areCases_append_iff {more : List Char} :
    AreCases (word ++ more) cs ↔ ∃ front back, cs = front ++ back ∧ AreCases word front ∧ AreCases more back := by
  constructor
  · intro h
    have hfront := List.forall₂_take word.length h
    have hback := List.forall₂_drop word.length h
    rw [List.take_left] at hfront
    rw [List.drop_left] at hback
    exact ⟨_, _, (List.take_append_drop word.length cs).symm, hfront, hback⟩
  · rintro ⟨front, back, rfl, hfront, hback⟩
    exact List.rel_append hfront hback

theorem wordOf_eq_iff {s : String} : wordOf cs = s ↔ cs.map Char.toLower = s.toList := by
  rw [wordOf, Text.asciiLower, String.toList_ofList, ← String.toList_inj, String.toList_ofList]

theorem areCases_plain_iff : AreCases "http".toList cs ↔ wordOf cs = "http" := by
  rw [wordOf_eq_iff, areCases_iff (by decide)]

theorem areCases_secure_iff : AreCases "https".toList cs ↔ wordOf cs = "https" ∨ wordOf cs = "httpſ" := by
  have hsecure : "https".toList = "http".toList ++ ['s'] := rfl
  have hlong : "httpſ".toList = "http".toList ++ ['ſ'] := rfl
  rw [wordOf_eq_iff, wordOf_eq_iff, hsecure, hlong, areCases_append_iff, List.map_eq_append_iff, List.map_eq_append_iff]
  simp only [areCases_iff (show 's' ∉ "http".toList by decide), areCases_s_iff, and_or_left, exists_or]

theorem mem_schemes_iff : wordOf scheme ∈ schemes ↔ AreCases "https".toList scheme ∨ AreCases "http".toList scheme := by
  rw [areCases_secure_iff, areCases_plain_iff]
  simp only [schemes, List.mem_cons, List.not_mem_nil, or_false]
  exact ⟨fun h => h.elim .inr .inl, fun h => h.elim .inr .inl⟩

theorem takeWord?_secure_of_plain (h : AreCases "http".toList scheme) (rest : List Char) :
    takeWord? "https".toList (scheme ++ "://".toList ++ rest) = none := by
  have hsecure : "https".toList = "http".toList ++ ['s'] := rfl
  rw [hsecure, List.append_assoc, takeWord?_append h]
  rfl

theorem splitScheme?_eq_some_iff :
    splitScheme? cs = some (scheme, rest) ↔ wordOf scheme ∈ schemes ∧ cs = scheme ++ "://".toList ++ rest := by
  rw [mem_schemes_iff]
  constructor
  · intro h
    obtain ⟨⟨taken, behind⟩, htaken, h⟩ := Option.bind_eq_some_iff.mp h
    obtain ⟨after, hafter, h⟩ := Option.bind_eq_some_iff.mp h
    cases h
    cases Text.dropStart?_eq_some_iff.mp hafter
    rw [List.append_assoc]
    rcases (Option.orElse_eq_some _ _ _).mp htaken with hsecure | ⟨-, hplain⟩
    · exact (of_takeWord? hsecure).imp_left .inl
    · exact (of_takeWord? hplain).imp_left .inr
  · rintro ⟨hscheme, rfl⟩
    have htaken : (takeWord? "https".toList (scheme ++ "://".toList ++ rest) <|>
        takeWord? "http".toList (scheme ++ "://".toList ++ rest)) = some (scheme, "://".toList ++ rest) := by
      rw [Option.orElse_eq_some]
      rcases hscheme with hsecure | hplain
      · exact .inl (takeWord?_eq_some_iff.mpr ⟨hsecure, List.append_assoc ..⟩)
      · exact .inr ⟨takeWord?_secure_of_plain hplain rest, takeWord?_eq_some_iff.mpr ⟨hplain, List.append_assoc ..⟩⟩
    have hafter : Text.dropStart? "://".toList ("://".toList ++ rest) = some rest := Text.dropStart?_eq_some_iff.mpr rfl
    unfold splitScheme?
    rw [htaken]
    dsimp only [Option.bind_eq_bind, Option.bind_some]
    rw [hafter]
    rfl

theorem endsAuthority_iff {c : Char} : endsAuthority c = true ↔ c ∈ ['/', '?', '#'] := by
  simp [endsAuthority, or_assoc]

theorem starts_iff : Starts text scheme authority ↔
    ∃ behind, text.toList = scheme ++ "://".toList ++ behind ∧ (behind.takeWhile fun c => !endsAuthority c) = authority := by
  have hinside (c : Char) : (!endsAuthority c) = true ↔ c ∉ ['/', '?', '#'] := by
    rw [Bool.not_eq_true', Bool.eq_false_iff, Ne, endsAuthority_iff]
  have hends (c : Char) : (!endsAuthority c) = false ↔ c ∈ ['/', '?', '#'] := by
    rw [Bool.not_eq_false', endsAuthority_iff]
  simp only [Text.takeWhile_eq_iff, hinside, hends]
  constructor
  · rintro ⟨⟨rest, htext, hrest⟩, hauthority⟩
    exact ⟨authority ++ rest, by rw [htext, List.append_assoc], rest, rfl, hauthority, hrest⟩
  · rintro ⟨_, htext, rest, rfl, hauthority, hrest⟩
    exact ⟨⟨rest, by rw [htext, List.append_assoc _ authority], hrest⟩, hauthority⟩

theorem splitUrl?_eq_some_iff :
    splitUrl? text = some (scheme, authority) ↔ wordOf scheme ∈ schemes ∧ Starts text scheme authority := by
  rw [starts_iff, splitUrl?, Option.map_eq_some_iff]
  constructor
  · rintro ⟨⟨_, behind⟩, hscheme, heq⟩
    cases heq
    obtain ⟨hword, htext⟩ := splitScheme?_eq_some_iff.mp hscheme
    exact ⟨hword, behind, htext, rfl⟩
  · rintro ⟨hword, behind, htext, rfl⟩
    exact ⟨(scheme, behind), splitScheme?_eq_some_iff.mpr ⟨hword, htext⟩, rfl⟩

theorem exists_isHostPort (authority : List Char) : ∃ hostPort, IsHostPort authority hostPort := by
  cases hcut : Text.splitLast? '@' authority with
  | none => exact ⟨authority, Text.splitLast?_eq_none_iff.mp hcut, .inl rfl⟩
  | some parts =>
    obtain ⟨hauthority, hafter⟩ := Text.splitLast?_eq_some_iff.mp hcut
    exact ⟨parts.2, hafter, .inr ⟨parts.1, hauthority⟩⟩

theorem hostOf?_of_bracketed (h : IsHostPort authority ('[' :: rest)) :
    hostOf? authority = (Text.splitFirst? ']' rest).map Prod.fst := by
  obtain ⟨hafter, rfl | ⟨user, rfl⟩⟩ := h
  · rw [hostOf?, Text.splitLast?_eq_none_iff.mpr hafter]
    rfl
  · rw [hostOf?, Text.splitLast?_append hafter]
    rfl

theorem hostOf?_of_plain (hbracket : hostPort.head? ≠ some '[') (h : IsHostPort authority hostPort) :
    hostOf? authority = some (hostPort.takeWhile (· ≠ ':')) := by
  obtain ⟨hafter, rfl | ⟨user, rfl⟩⟩ := h
  · rw [hostOf?, Text.splitLast?_eq_none_iff.mpr hafter]
    dsimp only
    split
    · rename_i hcut
      exact absurd (hcut ▸ rfl) hbracket
    · rfl
  · rw [hostOf?, Text.splitLast?_append hafter]
    dsimp only
    split
    · rename_i hcut
      exact absurd (hcut ▸ rfl) hbracket
    · rfl

theorem isHost_of_plain (hbracket : hostPort.head? ≠ some '[') : IsHost hostPort (hostPort.takeWhile (· ≠ ':')) := by
  obtain ⟨rest, hcut, hinside, hrest⟩ := Text.takeWhile_eq_iff.mp (rfl : hostPort.takeWhile (· ≠ ':') = _)
  have hhost : IsHost (hostPort.takeWhile (· ≠ ':') ++ rest) (hostPort.takeWhile (· ≠ ':')) := by
    refine .plain (hcut ▸ hbracket) (fun hcolon => ?_) (fun c hc => ?_)
    · simpa using hinside ':' hcolon
    · simpa using hrest c hc
  rwa [← hcut] at hhost

theorem hostOf?_eq_some_iff : hostOf? authority = some host ↔ HasHost authority host := by
  constructor
  · intro h
    obtain ⟨hostPort, hpart⟩ := exists_isHostPort authority
    refine ⟨hostPort, hpart, ?_⟩
    by_cases hbracket : hostPort.head? = some '['
    · obtain ⟨rest, rfl⟩ := List.head?_eq_some_iff.mp hbracket
      rw [hostOf?_of_bracketed hpart] at h
      obtain ⟨⟨_, after⟩, hcut, rfl⟩ := Option.map_eq_some_iff.mp h
      obtain ⟨rfl, hinside⟩ := Text.splitFirst?_eq_some_iff.mp hcut
      exact .bracketed hinside
    · rw [hostOf?_of_plain hbracket hpart] at h
      cases h
      exact isHost_of_plain hbracket
  · rintro ⟨hostPort, hpart, hhost⟩
    cases hhost with
    | bracketed hinside =>
      rw [hostOf?_of_bracketed hpart, Text.splitFirst?_append hinside]
      rfl
    | plain hbracket hinside hrest =>
      rw [hostOf?_of_plain hbracket hpart, Option.some.injEq, Text.takeWhile_eq_iff]
      refine ⟨_, rfl, fun c hc => ?_, fun c hc => ?_⟩
      · exact decide_eq_true fun hcolon => hinside (hcolon ▸ hc)
      · exact decide_eq_false (not_not_intro (hrest c hc))

namespace Target

/-- A text is read as a target exactly when it starts with a scheme and an authority that has a host. -/
theorem parse?_eq_some_iff :
    parse? text = some t ↔ ∃ scheme authority host, Starts text scheme authority ∧ wordOf scheme ∈ schemes ∧
      HasHost authority host ∧ host ≠ [] ∧
      t = ⟨wordOf scheme ++ "://" ++ String.ofList authority, wordOf scheme, Text.asciiLower (String.ofList host)⟩ := by
  constructor
  · intro h
    obtain ⟨⟨scheme, authority⟩, hurl, h⟩ := Option.bind_eq_some_iff.mp h
    obtain ⟨host, hhost, h⟩ := Option.bind_eq_some_iff.mp h
    obtain ⟨hword, hstarts⟩ := splitUrl?_eq_some_iff.mp hurl
    dsimp only at h
    split at h
    · cases h
    · rename_i hne
      exact ⟨scheme, authority, host, hstarts, hword, hostOf?_eq_some_iff.mp hhost, hne, (Option.some.inj h).symm⟩
  · rintro ⟨scheme, authority, host, hstarts, hword, hhost, hne, rfl⟩
    unfold parse?
    rw [splitUrl?_eq_some_iff.mpr ⟨hword, hstarts⟩]
    dsimp only [Option.bind_eq_bind, Option.bind_some]
    rw [hostOf?_eq_some_iff.mpr hhost]
    dsimp only [Option.bind_some]
    rw [if_neg hne]
    rfl

/-- What is read as a target with a scheme of one of some words is what starts with such a scheme. -/
theorem isWebUrl_iff (hwords : words ⊆ schemes) :
    IsWebUrl words text ↔ ∃ t, parse? text = some t ∧ t.scheme ∈ words := by
  simp only [parse?_eq_some_iff]
  constructor
  · rintro ⟨scheme, authority, host, hstarts, hword, hhost, hne⟩
    exact ⟨_, ⟨scheme, authority, host, hstarts, hwords hword, hhost, hne, rfl⟩, hword⟩
  · rintro ⟨_, ⟨scheme, authority, host, hstarts, -, hhost, hne, rfl⟩, hword⟩
    exact ⟨scheme, authority, host, hstarts, hword, hhost, hne⟩

theorem isWebUrl_iff_of_parse? (hwords : words ⊆ schemes) (h : parse? text = some t) :
    IsWebUrl words text ↔ t.scheme ∈ words := by
  rw [isWebUrl_iff hwords, h]
  simp only [Option.some.injEq, exists_eq_left']

theorem not_isWebUrl_of_parse? (hwords : words ⊆ schemes) (h : parse? text = none) : ¬IsWebUrl words text := by
  rw [isWebUrl_iff hwords, h]
  exact fun ⟨_, hsome, _⟩ => nomatch hsome

theorem scheme_mem (h : parse? text = some t) : t.scheme ∈ schemes := by
  obtain ⟨_, _, _, -, hword, -, -, rfl⟩ := parse?_eq_some_iff.mp h
  exact hword

end Target
end AssetGraph.Http

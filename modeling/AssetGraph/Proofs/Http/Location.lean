import AssetGraph.Proofs.Http.Target

/-!
# Where locations lead

A server at a target answers with a location. One that starts with a scheme is a URL of its own, one that starts with two slashes
keeps the scheme of the target, and one that starts with a single slash keeps its authority as well, so that it leads back to the
same target whatever follows. Nothing else leads anywhere. A location is followed without a look at its host, and what it leads to
is no target exactly when it gives an authority without one.
-/
namespace AssetGraph.Http

variable {scheme authority rest : List Char} {text location url : String} {t t' : Target}

/-- Whether a text starts with a scheme. What follows is the authority and the rest, and may be empty. -/
def IsAbsolute (text : String) : Prop :=
  ∃ scheme rest, wordOf scheme ∈ schemes ∧ text.toList = scheme ++ "://".toList ++ rest

/-- The authority that a location gives, behind a scheme or behind two slashes alone. -/
inductive GivesAuthority : String → List Char → Prop
  | absolute {location : String} {scheme authority : List Char} (hword : wordOf scheme ∈ schemes)
      (hstarts : Starts location scheme authority) : GivesAuthority location authority
  | relative {location : String} {authority rest : List Char} (hslashes : location.toList = '/' :: '/' :: (authority ++ rest))
      (hrest : ∀ c, rest.head? = some c → c ∈ ['/', '?', '#']) (hinside : ∀ c ∈ authority, c ∉ ['/', '?', '#']) :
      GivesAuthority location authority

def IsHostless (location : String) : Prop :=
  ∃ authority, GivesAuthority location authority ∧ ∀ host, HasHost authority host → host = []

theorem wordOf_toList {word : String} (h : word ∈ schemes) : wordOf word.toList = word := by
  have hall : ∀ word ∈ schemes, wordOf word.toList = word := by decide
  exact hall word h

theorem notMem_scheme {c : Char} (h : wordOf scheme ∈ schemes) (hsmall : c.toLower = c) (hwords : ∀ word ∈ schemes, c ∉ word.toList) :
    c ∉ scheme := by
  intro hc
  have hlower : c ∈ (wordOf scheme).toList := by
    rw [wordOf, Text.asciiLower, String.toList_ofList, String.toList_ofList]
    exact List.mem_map.mpr ⟨c, hc, hsmall⟩
  exact hwords _ h hlower

theorem colon_notMem_scheme (h : wordOf scheme ∈ schemes) : ':' ∉ scheme := notMem_scheme h (by decide) (by decide)

theorem slash_notMem_scheme (h : wordOf scheme ∈ schemes) : '/' ∉ scheme := notMem_scheme h (by decide) (by decide)

theorem scheme_unique {scheme' rest' : List Char} (h : wordOf scheme ∈ schemes) (h' : wordOf scheme' ∈ schemes)
    (heq : scheme ++ "://".toList ++ rest = scheme' ++ "://".toList ++ rest') : scheme = scheme' := by
  have hleft : Text.splitFirst? ':' (scheme ++ ':' :: ("//".toList ++ rest)) = some (scheme, _) :=
    Text.splitFirst?_append (colon_notMem_scheme h)
  have hright : Text.splitFirst? ':' (scheme' ++ ':' :: ("//".toList ++ rest')) = some (scheme', _) :=
    Text.splitFirst?_append (colon_notMem_scheme h')
  have hcolon : "://".toList = ':' :: "//".toList := rfl
  rw [List.append_assoc, List.append_assoc, hcolon, List.cons_append, List.cons_append] at heq
  rw [heq, hright] at hleft
  cases hleft
  rfl

theorem isSome_splitUrl?_iff : (splitUrl? text).isSome ↔ IsAbsolute text := by
  simp only [splitUrl?, Option.isSome_map, Option.isSome_iff_exists, Prod.exists, splitScheme?_eq_some_iff, IsAbsolute]

theorem not_isAbsolute_of_slash (h : ['/'] <+: text.toList) : ¬IsAbsolute text := by
  rintro ⟨scheme, rest, hword, htext⟩
  obtain ⟨behind, hslash⟩ := h
  rw [htext] at hslash
  cases scheme with
  | nil => exact absurd hword (by decide)
  | cons c scheme =>
    obtain ⟨rfl, -⟩ := List.cons.inj hslash
    exact slash_notMem_scheme hword List.mem_cons_self

namespace Target

/-- Behind the origin of a target the authority ends at once, and so the same target is read again. -/
theorem parse?_origin_append (h : parse? text = some t) (hrest : ∀ c, location.toList.head? = some c → c ∈ ['/', '?', '#']) :
    parse? (t.origin ++ location) = some t := by
  obtain ⟨scheme, authority, host, hstarts, hword, hhost, hne, rfl⟩ := parse?_eq_some_iff.mp h
  have hsame := wordOf_toList hword
  refine parse?_eq_some_iff.mpr ⟨(wordOf scheme).toList, authority, host, ⟨⟨location.toList, ?_, hrest⟩, hstarts.inside⟩, ?_,
    hhost, hne, ?_⟩
  · simp
  · rwa [hsame]
  · rw [hsame]

theorem parse?_origin (h : parse? text = some t) : parse? t.origin = some t := by
  have hempty : parse? (t.origin ++ "") = some t := parse?_origin_append h nofun
  rwa [String.append_empty] at hempty

theorem parse?_of_slash (h : parse? text = some t) (hslash : ['/'] <+: location.toList) :
    parse? (t.origin ++ location) = some t := by
  obtain ⟨behind, hbehind⟩ := hslash
  refine parse?_origin_append h fun c hc => ?_
  rw [← hbehind] at hc
  cases hc
  exact List.mem_cons_self

theorem scheme_eq (hword : wordOf scheme ∈ schemes) (htext : text.toList = scheme ++ "://".toList ++ rest)
    (h : parse? text = some t) : t.scheme = wordOf scheme := by
  obtain ⟨scheme', authority, host, ⟨⟨behind, htext', -⟩, -⟩, hword', -, -, rfl⟩ := parse?_eq_some_iff.mp h
  rw [htext, List.append_assoc _ authority] at htext'
  rw [scheme_unique hword hword' htext']

theorem resolve?_of_isAbsolute (h : IsAbsolute location) : t.resolve? location = some location :=
  if_pos (isSome_splitUrl?_iff.mpr h)

theorem resolve?_of_not_isAbsolute (h : ¬IsAbsolute location) :
    t.resolve? location = match location.toList with
      | '/' :: '/' :: _ => some (t.scheme ++ ":" ++ location)
      | '/' :: _ => some (t.origin ++ location)
      | _ => none :=
  if_neg (mt isSome_splitUrl?_iff.mp h)

theorem resolve?_of_slashes (h : ['/', '/'] <+: location.toList) : t.resolve? location = some (t.scheme ++ ":" ++ location) := by
  obtain ⟨rest, hrest⟩ := h
  rw [resolve?_of_not_isAbsolute (not_isAbsolute_of_slash ⟨'/' :: rest, hrest⟩), ← hrest]
  rfl

theorem resolve?_of_slash (h : ['/'] <+: location.toList) (hone : ¬['/', '/'] <+: location.toList) :
    t.resolve? location = some (t.origin ++ location) := by
  rw [resolve?_of_not_isAbsolute (not_isAbsolute_of_slash h)]
  obtain ⟨rest, hrest⟩ := h
  split
  · rename_i hcut
    exact absurd ⟨_, hcut.symm⟩ hone
  · rfl
  · rename_i hother
    exact absurd hrest.symm (hother rest)

theorem resolve?_of_other (habsolute : ¬IsAbsolute location) (h : ¬['/'] <+: location.toList) : t.resolve? location = none := by
  rw [resolve?_of_not_isAbsolute habsolute]
  split
  · rename_i hcut
    exact absurd ⟨_, hcut.symm⟩ h
  · rename_i hcut
    exact absurd ⟨_, hcut.symm⟩ h
  · rfl

/-- What starts with a scheme is no target exactly when its authority has no host. -/
theorem parse?_eq_none_iff (hword : wordOf scheme ∈ schemes) (hstarts : Starts text scheme authority) :
    parse? text = none ↔ ∀ host, HasHost authority host → host = [] := by
  constructor
  · intro h host hhost
    by_contra hne
    have hsome := parse?_eq_some_iff.mpr ⟨scheme, authority, host, hstarts, hword, hhost, hne, rfl⟩
    rw [h] at hsome
    cases hsome
  · intro h
    refine Option.eq_none_iff_forall_ne_some.mpr fun t hparse => ?_
    obtain ⟨scheme', authority', host, hstarts', hword', hhost, hne, -⟩ := parse?_eq_some_iff.mp hparse
    have hurl := splitUrl?_eq_some_iff.mpr ⟨hword, hstarts⟩
    rw [splitUrl?_eq_some_iff.mpr ⟨hword', hstarts'⟩] at hurl
    cases hurl
    exact hne (h host hhost)

theorem starts_of_slashes (hslashes : location.toList = '/' :: '/' :: (authority ++ rest))
    (hrest : ∀ c, rest.head? = some c → c ∈ ['/', '?', '#']) (hinside : ∀ c ∈ authority, c ∉ ['/', '?', '#']) (word : String) :
    Starts (word ++ ":" ++ location) word.toList authority := by
  refine ⟨⟨rest, ?_, hrest⟩, hinside⟩
  rw [String.toList_append, String.toList_append, hslashes]
  simp

/-- A location that gives an authority leads to no target exactly when the authority has no host. -/
theorem resolve?_of_gives (h : parse? text = some t) (hgives : GivesAuthority location authority) :
    ∃ url, t.resolve? location = some url ∧ (parse? url = none ↔ ∀ host, HasHost authority host → host = []) := by
  cases hgives with
  | absolute hword hstarts =>
    obtain ⟨behind, htext, -⟩ := starts_iff.mp hstarts
    exact ⟨location, resolve?_of_isAbsolute ⟨_, behind, hword, htext⟩, parse?_eq_none_iff hword hstarts⟩
  | relative hslashes hrest hinside =>
    have hword : wordOf t.scheme.toList ∈ schemes := (wordOf_toList (scheme_mem h)).symm ▸ scheme_mem h
    exact ⟨_, resolve?_of_slashes ⟨_, hslashes.symm⟩,
      parse?_eq_none_iff hword (starts_of_slashes hslashes hrest hinside t.scheme)⟩

/-- A location that leads anywhere gives an authority, or it leads back to the target. -/
theorem gives_or_returns (h : parse? text = some t) (hurl : t.resolve? location = some url) :
    (∃ authority, GivesAuthority location authority) ∨ parse? url = some t := by
  by_cases habsolute : IsAbsolute location
  · obtain ⟨scheme, behind, hword, htext⟩ := habsolute
    exact .inl ⟨_, .absolute hword (starts_iff.mpr ⟨behind, htext, rfl⟩)⟩
  · by_cases hslashes : ['/', '/'] <+: location.toList
    · obtain ⟨behind, hbehind⟩ := hslashes
      have hstarts : Starts ("http" ++ ":" ++ location) "http".toList (behind.takeWhile fun c => !endsAuthority c) := by
        refine starts_iff.mpr ⟨behind, ?_, rfl⟩
        rw [String.toList_append, String.toList_append, ← hbehind]
        simp
      obtain ⟨⟨rest, htext, hrest⟩, hinside⟩ := hstarts
      have hlocation : location.toList = '/' :: '/' :: ((behind.takeWhile fun c => !endsAuthority c) ++ rest) := by
        simpa using htext
      exact .inl ⟨_, .relative hlocation hrest hinside⟩
    · by_cases hslash : ['/'] <+: location.toList
      · rw [resolve?_of_slash hslash hslashes] at hurl
        cases hurl
        exact .inr (parse?_of_slash h hslash)
      · rw [resolve?_of_other habsolute hslash] at hurl
        cases hurl

theorem exists_resolved_of_isHostless (h : parse? text = some t) (hhostless : IsHostless location) :
    ∃ url, t.resolve? location = some url ∧ parse? url = none := by
  obtain ⟨authority, hgives, hhost⟩ := hhostless
  obtain ⟨url, hurl, hiff⟩ := resolve?_of_gives h hgives
  exact ⟨url, hurl, hiff.mpr hhost⟩

/-- What a location leads to is no target exactly when the location gives an authority without a host. -/
theorem parse?_resolved_eq_none_iff (h : parse? text = some t) (hurl : t.resolve? location = some url) :
    parse? url = none ↔ IsHostless location := by
  constructor
  · intro hnone
    rcases gives_or_returns h hurl with ⟨authority, hgives⟩ | hback
    · obtain ⟨url', hurl', hiff⟩ := resolve?_of_gives h hgives
      rw [hurl] at hurl'
      cases hurl'
      exact ⟨authority, hgives, hiff.mp hnone⟩
    · rw [hnone] at hback
      cases hback
  · intro hhostless
    obtain ⟨url', hurl', hnone⟩ := exists_resolved_of_isHostless h hhostless
    rw [hurl] at hurl'
    cases hurl'
    exact hnone

/-- The origin of a target is read as that target. A location with a single slash leads to the origin and on, and so to the same
target; one with two slashes keeps the scheme; one that starts with a scheme leads where it says; no other leads anywhere. -/
theorem location_keeps_origin (h : parse? text = some t) :
    parse? t.origin = some t ∧ ∀ location : String,
      (['/'] <+: location.toList → ¬['/', '/'] <+: location.toList →
        t.resolve? location = some (t.origin ++ location) ∧ parse? (t.origin ++ location) = some t) ∧
      (['/', '/'] <+: location.toList → t.resolve? location = some (t.scheme ++ ":" ++ location) ∧
        ∀ t', parse? (t.scheme ++ ":" ++ location) = some t' → t'.scheme = t.scheme) ∧
      (IsAbsolute location → t.resolve? location = some location) ∧
      (¬IsAbsolute location → ¬['/'] <+: location.toList → t.resolve? location = none) := by
  refine ⟨parse?_origin h, fun location => ⟨fun hslash hone => ?_, fun hslashes => ?_, resolve?_of_isAbsolute, resolve?_of_other⟩⟩
  · exact ⟨resolve?_of_slash hslash hone, parse?_of_slash h hslash⟩
  · refine ⟨resolve?_of_slashes hslashes, fun t' hparse => ?_⟩
    obtain ⟨behind, hbehind⟩ := hslashes
    have hword := wordOf_toList (scheme_mem h)
    have hurl : (t.scheme ++ ":" ++ location).toList = t.scheme.toList ++ "://".toList ++ behind := by
      rw [String.toList_append, String.toList_append, ← hbehind]
      simp
    rw [scheme_eq (hword.symm ▸ scheme_mem h) hurl hparse, hword]

/-- An authority with a user, brackets and a port number is kept by a location that holds an `@`, and the scheme with the long s by
one that starts with two slashes. -/
theorem location_keeps_bracketed_origin :
    let t : Target := ⟨"https://me:secret@[::1]:8080", "https", "::1"⟩
    let long : Target := ⟨"httpſ://Example.com", "httpſ", "example.com"⟩
    parse? "HTTPS://me:secret@[::1]:8080/a" = some t ∧ parse? t.origin = some t ∧
      t.resolve? "/@other.example:80//#" = some "https://me:secret@[::1]:8080/@other.example:80//#" ∧
      parse? "https://me:secret@[::1]:8080/@other.example:80//#" = some t ∧
      t.resolve? "hTTpS://" = some "hTTpS://" ∧ t.resolve? "?a=//b" = none ∧
      parse? "HTTPſ://Example.com?" = some long ∧ long.resolve? "//other.example" = some "httpſ://other.example" ∧
      ∀ t', parse? "httpſ://other.example" = some t' → t'.scheme = "httpſ" := by
  intro t long
  have hparse : parse? "HTTPS://me:secret@[::1]:8080/a" = some t := by decide +kernel
  have hlong : parse? "HTTPſ://Example.com?" = some long := by decide +kernel
  have habsolute : IsAbsolute "hTTpS://" := ⟨"hTTpS".toList, [], by decide, rfl⟩
  have hother : ¬IsAbsolute "?a=//b" := mt isSome_splitUrl?_iff.mpr (by decide)
  obtain ⟨horigin, hlocations⟩ := location_keeps_origin hparse
  obtain ⟨hrooted, hsame⟩ := (hlocations "/@other.example:80//#").1 (by decide) (by decide)
  obtain ⟨hkept, hscheme⟩ := ((location_keeps_origin hlong).2 "//other.example").2.1 (by decide)
  exact ⟨hparse, horigin, hrooted, hsame, (hlocations _).2.2.1 habsolute, (hlocations _).2.2.2 hother (by decide), hlong, hkept,
    hscheme⟩

end Target
end AssetGraph.Http

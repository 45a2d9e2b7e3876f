import AssetGraph.Proofs.Http.Target
import AssetGraph.Proofs.Resolve.EdgeText
import AssetGraph.Proofs.Resolve.Malformed

/-!
# Getting web pages

A web server is asked for a page when the text is a web URL and no outcome is recalled. Any other text is malformed and leaves
everything as it is. What counts as a web URL is wider than `http` and `https` by the texts whose scheme ends in the long s.
-/
namespace AssetGraph.Resolve.Pages

open Http (IsWebUrl Target)

variable {c : Config} {world : World} {s : State} {text : String} {ignoreCache : Bool} {target : Target}

theorem service_eq (c : Config) (text : String) (ignoreCache : Bool) :
    let t := Task.ofQuery c .http ⟨"http", .get, text, "global"⟩ ignoreCache
    t.service c = match Target.parse? text with
      | none => .answer (.error (t.failure (.notAWebUrl text)))
      | some target =>
        .resolve ((fun response => [Http.responseItem "global" text target response]) <$> askWebServer text)
          (some (.noResponse text)) := rfl

theorem requests_askWebServer {α : Type} (f : Http.Response → α) (url : String) (world : World) (s : State) :
    ((f <$> askWebServer url).run.run world s).2.requests = s.requests ++ [.http url] := by
  have hask : (f <$> askWebServer url).run = .ask (.http url) fun answer =>
      .done ((answer.mapError Cause.webServer).map f) := by
    refine congrArg (Plan.ask (.http url)) (funext fun answer => ?_)
    cases answer <;> rfl
  rw [hask, Plan.run]
  cases world s.requests (.http url) <;> rfl

/-- A text that is read as a target is asked for, unless the outcome is recalled. -/
theorem requests_of_parse? (h : Target.parse? text = some target) :
    let q : Query := ⟨"http", .get, text, "global"⟩
    ((execute c q ignoreCache).run world s).2.requests =
      s.requests ++ if (Task.ofQuery c .http q ignoreCache).recalled? s = none then [.http text] else [] := by
  intro q
  have hservice := service_eq c text ignoreCache
  dsimp only at hservice
  rw [h] at hservice
  rw [execute_known c (ItemType.ofName?_name .http)]
  exact requests_serve_of_asking hservice fun s => requests_askWebServer _ text world s

theorem run_of_parse?_eq_none (h : Target.parse? text = none) :
    (execute c ⟨"http", .get, text, "global"⟩ ignoreCache).run world s = (some (.error {
      kind := .malformedInput
      message := text ++ " is not an http(s) URL"
      scope := some "global"
      itemType := some "http"
      source := some "stdlib-http" }), s) := by
  have hservice := service_eq c text ignoreCache
  dsimp only at hservice
  rw [h] at hservice
  rw [execute_known c (ItemType.ofName?_name .http), hservice]
  rfl

/-- A web server is asked for a page when the text starts with the scheme `http` or `https`, in letters of either size, and an
authority with a host. Beyond these it is asked only where the scheme is `https` with the long s, and the target keeps that
scheme. Any other text is malformed, and nothing is asked. -/
theorem page_asked_by_web_url (c : Config) (world : World) (s : State) (text : String) (ignoreCache : Bool) :
    let q : Query := ⟨"http", .get, text, "global"⟩
    let run := (execute c q ignoreCache).run world s
    (IsWebUrl ["http", "https"] text ∨ IsWebUrl ["httpſ"] text → run.2.requests =
      s.requests ++ if (Task.ofQuery c .http q ignoreCache).recalled? s = none then [.http text] else []) ∧
    (¬IsWebUrl ["http", "https"] text → ¬IsWebUrl ["httpſ"] text → run = (some (.error {
      kind := .malformedInput
      message := text ++ " is not an http(s) URL"
      scope := some "global"
      itemType := some "http"
      source := some "stdlib-http" }), s)) ∧
    ∀ target, Target.parse? text = some target → target.host ≠ "" ∧
      (target.scheme ∈ ["http", "https"] ↔ IsWebUrl ["http", "https"] text) ∧
      (target.scheme = "httpſ" ↔ ¬IsWebUrl ["http", "https"] text) := by
  intro q run
  have hplain : ["http", "https"] ⊆ Http.schemes := by decide
  have hlong : ["httpſ"] ⊆ Http.schemes := by decide
  cases hparse : Target.parse? text with
  | none =>
    refine ⟨?_, fun _ _ => run_of_parse?_eq_none hparse, nofun⟩
    rintro (hweb | hweb)
    · exact absurd hweb (Target.not_isWebUrl_of_parse? hplain hparse)
    · exact absurd hweb (Target.not_isWebUrl_of_parse? hlong hparse)
  | some target =>
    have hscheme : target.scheme ∈ ["http", "https"] ∨ target.scheme ∈ ["httpſ"] :=
      List.mem_append.mp (Target.scheme_mem hparse)
    rw [Target.isWebUrl_iff_of_parse? hplain hparse, Target.isWebUrl_iff_of_parse? hlong hparse]
    refine ⟨fun _ => requests_of_parse? hparse, fun hneither hlong => absurd hscheme (not_or_intro hneither hlong), ?_⟩
    rintro _ ⟨⟩
    refine ⟨Target.host_ne_empty hparse, Iff.rfl, fun hlong => ?_, fun hother => ?_⟩
    · rw [hlong]
      decide
    · exact List.mem_singleton.mp (hscheme.resolve_left hother)

/-- A page is asked for by a URL with a user, a host in brackets and a port number, and not by one whose authority has no
host. -/
theorem page_asked_by_bracketed_host :
    let text := "HTTPS://me:secret@[::1]:8080/#a@b"
    let other := "http://me@:80/"
    let asked := (execute {} ⟨"http", .get, text, "global"⟩ false).run (fun _ _ => none) {}
    let refused := (execute {} ⟨"http", .get, other, "global"⟩ false).run (fun _ _ => none) {}
    IsWebUrl ["http", "https"] text ∧ asked.2.requests = [.http text] ∧
      ¬IsWebUrl ["http", "https"] other ∧ ¬IsWebUrl ["httpſ"] other ∧ refused.2.requests = [] := by
  intro text other asked refused
  have hplain : ["http", "https"] ⊆ Http.schemes := by decide
  have hlong : ["httpſ"] ⊆ Http.schemes := by decide
  have hparse : Target.parse? text = some ⟨"https://me:secret@[::1]:8080", "https", "::1"⟩ := by decide +kernel
  have hweb : IsWebUrl ["http", "https"] text := (Target.isWebUrl_iff_of_parse? hplain hparse).mpr (by decide)
  have hrecalled : (Task.ofQuery {} .http ⟨"http", .get, text, "global"⟩ false).recalled? {} = none := rfl
  obtain ⟨hasks, -, -⟩ := page_asked_by_web_url {} (fun _ _ => none) {} text false
  have hasked := hasks (.inl hweb)
  rw [if_pos hrecalled] at hasked
  have hnone : Target.parse? other = none := by decide +kernel
  have hother := Target.not_isWebUrl_of_parse? hplain hnone
  have hotherLong := Target.not_isWebUrl_of_parse? hlong hnone
  obtain ⟨-, hrefuses, -⟩ := page_asked_by_web_url {} (fun _ _ => none) {} other false
  exact ⟨hweb, hasked, hother, hotherLong, congrArg (fun run => run.2.requests) (hrefuses hother hotherLong)⟩

/-- A web server is asked for a page by a URL whose scheme is neither `http` nor `https`. -/
theorem page_asked_by_long_s :
    let text := "httpſ://example.com/"
    let run := (execute {} ⟨"http", .get, text, "global"⟩ false).run (fun _ _ => none) {}
    Reachable {} (fun _ _ => none) {} ∧ ¬IsWebUrl ["http", "https"] text ∧ run.2.requests = [.http text] ∧
      (Target.parse? text).map Target.scheme = some "httpſ" := by
  intro text run
  have hparse : Target.parse? text = some ⟨"httpſ://example.com", "httpſ", "example.com"⟩ := by decide +kernel
  have hother : ¬IsWebUrl ["http", "https"] text := by
    rw [Target.isWebUrl_iff_of_parse? (by decide) hparse]
    decide
  exact ⟨Reachable.fresh 0, hother, by decide +kernel, by rw [hparse]; rfl⟩

end AssetGraph.Resolve.Pages

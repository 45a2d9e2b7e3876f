import AssetGraph.Proofs.Http.Location
import AssetGraph.Proofs.Resolve.Pages

/-!
# Following redirects

The page of a redirect has an edge to what its location leads to, and getting that edge asks the web server again. The edge is
there as soon as the location leads anywhere: where the location gives an authority without a host, getting the edge is refused as
malformed and nothing is asked.
-/
namespace AssetGraph

namespace Http

variable {text location url : String} {t : Target} {r : Response} {e : Edge}

theorem type_hostEdge_ne (t : Target) (scope : String) : (t.hostEdge scope).query.type ≠ "http" := by
  unfold Target.hostEdge
  split
  · exact (by decide : ItemType.ip.name ≠ "http")
  · exact (by decide : ItemType.dns.name ≠ "http")

theorem mem_redirectEdge_iff {scope : String} :
    e ∈ redirectEdge t scope r ↔ r.isRedirect = true ∧ ∃ location url, r.location? = some location ∧
      t.resolve? location = some url ∧ e = .getting .http url scope .inbound := by
  unfold redirectEdge
  split
  · rename_i hredirect
    rw [Option.mem_toList, Option.map_eq_some_iff, and_iff_right hredirect]
    constructor
    · rintro ⟨url, hurl, rfl⟩
      obtain ⟨location, hlocation, hresolve⟩ := Option.bind_eq_some_iff.mp hurl
      exact ⟨location, url, hlocation, hresolve, rfl⟩
    · rintro ⟨location, url, hlocation, hresolve, rfl⟩
      exact ⟨url, Option.bind_eq_some_iff.mpr ⟨location, hlocation, hresolve⟩, rfl⟩
  · rename_i hother
    exact iff_of_false List.not_mem_nil fun h => hother h.1

theorem mem_pageEdges_iff {scope : String} :
    e ∈ (responseItem scope text t r).edges ∧ e.query.type = "http" ↔ r.isRedirect = true ∧ ∃ location url,
      r.location? = some location ∧ t.resolve? location = some url ∧ e = .getting .http url scope .inbound := by
  rw [← mem_redirectEdge_iff]
  constructor
  · rintro ⟨he, htype⟩
    rcases List.mem_cons.mp he with rfl | he
    · exact absurd htype (type_hostEdge_ne t scope)
    · exact he
  · intro he
    obtain ⟨-, _, _, -, -, rfl⟩ := mem_redirectEdge_iff.mp he
    exact ⟨List.mem_cons_of_mem _ he, rfl⟩

end Http

namespace Resolve.Pages

open Http (IsHostless Target responseItem)

variable {c : Config} {world : World} {s : State} {text : String} {ignoreCache : Bool} {t : Target}

/-- The edges of a page to other pages are those that its redirect leads to. Getting one asks the web server, unless the outcome
is recalled, when the location does not lack a host, and is refused as malformed, with nothing asked and nothing changed, when it
does. So all of them can be followed exactly when no location of a redirect lacks a host. -/
theorem redirects_followed_iff (h : Target.parse? text = some t) (r : Http.Response) (c : Config) (world : World) (s : State)
    (ignoreCache : Bool) :
    let item := responseItem "global" text t r
    (∀ e ∈ item.edges, e.query.type = "http" → ∃ location url, r.isRedirect = true ∧ r.location? = some location ∧
      t.resolve? location = some url ∧ e = ⟨⟨"http", .get, url, "global"⟩, .inbound⟩ ∧
      let run := (execute c e.query ignoreCache).run world s
      (IsHostless location → run = (some (.error {
        kind := .malformedInput
        message := url ++ " is not an http(s) URL"
        scope := some "global"
        itemType := some "http"
        source := some "stdlib-http" }), s)) ∧
      (¬IsHostless location → run.2.requests =
        s.requests ++ if (Task.ofQuery c .http e.query ignoreCache).recalled? s = none then [.http url] else [])) ∧
    ((∀ e ∈ item.edges, e.query.type = "http" → ∃ t', Target.parse? e.query.text = some t') ↔
      ¬(r.isRedirect = true ∧ ∃ location, r.location? = some location ∧ IsHostless location)) := by
  intro item
  constructor
  · intro e he htype
    obtain ⟨hredirect, location, url, hlocation, hurl, rfl⟩ := Http.mem_pageEdges_iff.mp ⟨he, htype⟩
    have hnone := Target.parse?_resolved_eq_none_iff h hurl
    refine ⟨location, url, hredirect, hlocation, hurl, rfl, fun hhostless => ?_, fun hhost => ?_⟩
    · exact run_of_parse?_eq_none (hnone.mpr hhostless)
    · obtain ⟨t', ht'⟩ := Option.ne_none_iff_exists'.mp (mt hnone.mp hhost)
      exact requests_of_parse? ht'
  · constructor
    · rintro hall ⟨hredirect, location, hlocation, hhostless⟩
      obtain ⟨url, hurl, hnone⟩ := Target.exists_resolved_of_isHostless h hhostless
      obtain ⟨he, htype⟩ := Http.mem_pageEdges_iff.mpr ⟨hredirect, location, url, hlocation, hurl, rfl⟩
      obtain ⟨t', ht'⟩ := hall _ he htype
      exact Option.some_ne_none t' (ht'.symm.trans hnone)
    · intro hnever e he htype
      obtain ⟨hredirect, location, url, hlocation, hurl, rfl⟩ := Http.mem_pageEdges_iff.mp ⟨he, htype⟩
      have hhost : ¬IsHostless location := fun hhostless => hnever ⟨hredirect, location, hlocation, hhostless⟩
      exact Option.ne_none_iff_exists'.mp (mt (Target.parse?_resolved_eq_none_iff h hurl).mp hhost)

/-- A redirect to a bracketed host behind two slashes is followed on the scheme of the page. -/
theorem redirect_followed_to_bracketed_host :
    let t : Target := ⟨"https://me@example.com:8443", "https", "example.com"⟩
    let r : Http.Response := ⟨301, "301 Moved Permanently", "HTTP/1.1", [("Server", "x"), ("LOCATION", "//[::1]:80?a=//")], [], none⟩
    let e : Edge := ⟨⟨"http", .get, "https://[::1]:80?a=//", "global"⟩, .inbound⟩
    Target.parse? "https://me@example.com:8443/a" = some t ∧
      e ∈ (responseItem "global" "https://me@example.com:8443/a" t r).edges ∧ ¬IsHostless "//[::1]:80?a=//" ∧
      ((execute {} e.query false).run (fun _ _ => none) {}).2.requests = [.http "https://[::1]:80?a=//"] := by
  intro t r e
  have hparse : Target.parse? "https://me@example.com:8443/a" = some t := by decide +kernel
  have hresolve : t.resolve? "//[::1]:80?a=//" = some "https://[::1]:80?a=//" := by decide +kernel
  have hread : Target.parse? "https://[::1]:80?a=//" = some ⟨"https://[::1]:80", "https", "::1"⟩ := by decide +kernel
  have hlocation : r.location? = some "//[::1]:80?a=//" := by decide +kernel
  have hhost : ¬IsHostless "//[::1]:80?a=//" := by
    rw [← Target.parse?_resolved_eq_none_iff hparse hresolve, hread]
    exact Option.some_ne_none _
  have he : e ∈ (responseItem "global" "https://me@example.com:8443/a" t r).edges :=
    (Http.mem_pageEdges_iff.mpr ⟨rfl, _, _, hlocation, hresolve, rfl⟩).1
  obtain ⟨hedges, -⟩ := redirects_followed_iff hparse r {} (fun _ _ => none) {} false
  obtain ⟨location, url, -, hother, -, heq, -, hasked⟩ := hedges e he rfl
  rw [hlocation] at hother
  cases hother
  have hurl : "https://[::1]:80?a=//" = url := congrArg (fun e => e.query.text) heq
  subst hurl
  exact ⟨hparse, he, hhost, hasked hhost⟩

/-- A redirect to a URL without a host gets an edge, and getting that edge is refused before anything is asked. -/
theorem redirect_without_host_not_followed :
    let t : Target := ⟨"http://example.com", "http", "example.com"⟩
    let r : Http.Response := ⟨301, "301 Moved Permanently", "HTTP/1.1", [("Location", "http:///path")], [], none⟩
    let e : Edge := ⟨⟨"http", .get, "http:///path", "global"⟩, .inbound⟩
    let run := (execute {} e.query false).run (fun _ _ => none) {}
    Target.parse? "http://example.com/" = some t ∧ e ∈ (responseItem "global" "http://example.com/" t r).edges ∧
      Target.parse? e.query.text = none ∧ IsMalformed run.1 ∧ run.2.requests = [] := by
  intro t r e run
  have hparse : Target.parse? "http://example.com/" = some t := by decide +kernel
  have hresolve : t.resolve? "http:///path" = some "http:///path" := by decide +kernel
  have hlocation : r.location? = some "http:///path" := by decide +kernel
  have hread : Target.parse? "http:///path" = none := by decide +kernel
  have he : e ∈ (responseItem "global" "http://example.com/" t r).edges :=
    (Http.mem_pageEdges_iff.mpr ⟨rfl, _, _, hlocation, hresolve, rfl⟩).1
  have hrun : run = (some (.error _), {}) := run_of_parse?_eq_none hread
  rw [hrun]
  exact ⟨hparse, he, hread, rfl, rfl⟩

end Resolve.Pages
end AssetGraph

import AssetGraph.Proofs.Rdap.Url
import AssetGraph.Proofs.Resolve.Malformed

/-!
# Searching by registry URLs

A text that splits into the parts of a URL is read as those parts, and every other text is malformed. The edge from a domain
to a nameserver is a URL joined on the server that answered for the domain, and searching along it asks that server.
-/
namespace AssetGraph.Resolve

open Rdap (ClientError Kind Nameserver Response Url nameserverEdges)
open Rdap.Url (IsQuery Splits slashes)

variable {c : Config} {world : World} {s : State} {text root name : String} {url : Url} {ignoreCache : Bool}

theorem run_urlOf_of_parse? (h : Url.parse? text = some url) : (urlOf url.kind text).run = .done (.ok url) := by
  simp only [urlOf, h, if_pos]
  rfl

theorem run_urlOf_of_parse?_eq_none (h : Url.parse? text = none) (expected : Kind) :
    (urlOf expected text).run = .done (.error (.notARegistryUrl text)) := by
  simp only [urlOf, h]
  rfl

/-- A text splits into a root, a word for a kind of object and a query in one way at most. If it does, it is read as those
parts, and nothing else is. If it does not, it is malformed, whatever kind of object was expected. -/
theorem url_read_as_split (text : String) :
    (∀ root segment query, Splits text root segment query →
      (∃ kind : Kind, kind.segment = segment ∧ Url.parse? text = some ⟨root, kind, query⟩ ∧
        (urlOf kind text).run = .done (.ok ⟨root, kind, query⟩)) ∧
      ∀ root' segment' query', Splits text root' segment' query' → root' = root ∧ segment' = segment ∧ query' = query) ∧
    (∀ url, Url.parse? text = some url → Splits text url.root url.kind.segment url.query) ∧
    ((∀ root segment query, ¬Splits text root segment query) → Url.parse? text = none ∧
      ∀ expected, ∃ cause, (urlOf expected text).run = .done (.error cause) ∧
        cause.error = { kind := .malformedInput, message := "Invalid RDAP URL: " ++ text }) := by
  refine ⟨fun root segment query hsplits => ⟨?_, fun _ _ _ => hsplits.unique⟩, ?_, fun hnone => ?_⟩
  · obtain ⟨kind, rfl, hparse⟩ := hsplits.parse?_eq
    exact ⟨kind, rfl, hparse, run_urlOf_of_parse? hparse⟩
  · exact fun url => Rdap.Url.parse?_eq_some_iff.mp
  · have hparse : Url.parse? text = none :=
      Option.eq_none_iff_forall_ne_some.mpr fun url hurl => hnone _ _ _ (Rdap.Url.parse?_eq_some_iff.mp hurl)
    exact ⟨hparse, fun expected => ⟨_, run_urlOf_of_parse?_eq_none hparse expected, rfl⟩⟩

/-- A root may hold words for kinds of objects and slashes in a row, for only the last two slashes count. What is between the
slashes of a scheme and those is needed. -/
theorem url_read_as_split_at_last_slashes :
    let text := "https:///ip/x//domain/example.net"
    let other := "http://domain/example.net"
    Splits text "https:///ip/x/" "domain" "example.net" ∧
      (urlOf .domain text).run = .done (.ok ⟨"https:///ip/x/", .domain, "example.net"⟩) ∧
      (∀ root segment query, ¬Splits other root segment query) ∧
      ∃ cause, (urlOf .domain other).run = .done (.error cause) ∧
        cause.error = { kind := .malformedInput, message := "Invalid RDAP URL: http://domain/example.net" } := by
  intro text other
  have hsplits : Splits text "https:///ip/x/" "domain" "example.net" :=
    ⟨by decide, ⟨"https://", by decide, "/ip/x/", by decide, by decide, by decide⟩, by decide, ⟨by decide, by decide⟩⟩
  obtain ⟨hread, -, -⟩ := url_read_as_split text
  obtain ⟨⟨kind, hkind, -, hrun⟩, -⟩ := hread _ _ _ hsplits
  have hdomain : kind = .domain := by
    rw [← Option.some.injEq, ← Rdap.Kind.ofSegment?_eq_some_iff.mpr hkind]
    rfl
  subst hdomain
  obtain ⟨hreadOther, -, hrefused⟩ := url_read_as_split other
  have hother : Url.parse? other = none := by decide +kernel
  have hnone (root segment query : String) (h : Splits other root segment query) : False := by
    obtain ⟨⟨_, -, hsome, -⟩, -⟩ := hreadOther root segment query h
    rw [hother] at hsome
    cases hsome
  exact ⟨hsplits, hrun, hnone, (hrefused hnone).2 .domain⟩

namespace Nameservers

def decided (t : Task) : Except ClientError Response → Except Cause (List Item)
  | .error e => .error (.registry e)
  | .ok response =>
    match response.object with
    | some (.nameserver n) => .ok [t.item "ldhName" n.attributes n.edges]
    | some o => .error (.otherClass "nameserver" o.className)
    | none => .error (.nothingFound "nameserver" t.text)

theorem resolve_eq {t : Task} (h : Url.parse? t.text = some ⟨root, .nameserver, name⟩) :
    (resolve t).run = .ask (.rdap ⟨.nameserver, name, some root⟩) fun answer => .done (decided t answer) := by
  have hurl : (urlOf .nameserver t.text).run = _ := run_urlOf_of_parse? h
  rw [resolve, Resolution.run_bind, hurl]
  dsimp only [Plan.bind]
  rw [Resolution.run_bind, askRegistry_eq]
  refine congrArg (Plan.ask (.rdap ⟨.nameserver, name, some root⟩)) (funext fun answer => ?_)
  rcases answer with e | ⟨object, urls⟩
  · rfl
  · cases object with
    | none => rfl
    | some o => cases o <;> rfl

theorem requests_resolve (t : Task) (h : Url.parse? t.text = some ⟨root, .nameserver, name⟩) (world : World) (s : State) :
    ((resolve t).run.run world s).2.requests = s.requests ++ [.rdap ⟨.nameserver, name, some root⟩] := by
  rw [resolve_eq h, Plan.run]
  cases world s.requests (.rdap ⟨.nameserver, name, some root⟩) <;> rfl

/-- A search by the URL of a nameserver asks the server of the URL, unless the outcome is recalled, and is not malformed. -/
theorem run_search (h : Reachable c world s) (hurl : Url.parse? text = some ⟨root, .nameserver, name⟩) :
    let q : Query := ⟨ItemType.nameserver.name, .search, text, globalScope⟩
    let run := (execute c q ignoreCache).run world s
    ¬IsMalformed run.1 ∧ run.2.requests =
      s.requests ++ if (Task.ofQuery c .nameserver q ignoreCache).recalled? s = none
        then [.rdap ⟨.nameserver, name, some root⟩] else [] := by
  intro q run
  let t := Task.ofQuery c .nameserver q ignoreCache
  have hservice : t.service c = .resolve (resolve t) none := rfl
  have hrun : run = (t.serve (t.service c)).run world s := by
    rw [← execute_known c (ItemType.ofName?_name .nameserver)]
  rw [hrun]
  constructor
  · rw [isMalformed_serve_iff h hservice]
    rintro ⟨-, hblames⟩
    obtain ⟨cause, hresult, hkind⟩ := exists_cause_of_blames hblames
    have hother : t.type ≠ .ipNetwork := show ItemType.nameserver ≠ .ipNetwork by decide
    obtain ⟨-, hread⟩ := yields_blame hservice rfl hother world _ (.error cause) hresult hkind
    exact hread _ hurl rfl
  · exact requests_serve_of_asking hservice fun s => requests_resolve t hurl world s

end Nameservers

/-- A URL joined on a server is read back with the root of the server without its final slashes, and a search along the edge
to a nameserver asks that server for it. This fails exactly where the slashes at the end of the root are those of its scheme:
there the joined URL is not one, and the edge leads to nothing. -/
theorem joined_url_leads_to_server (h : Url.parse? text = some url) :
    ∃ root count, url.root = root ++ slashes count ∧ root.toList.getLast? ≠ some '/' ∧
      (∀ kind query, IsQuery query →
        Url.parse? (url.join kind query) = if root ∈ ["http:", "https:"] then none else some ⟨root, kind, query⟩) ∧
      ∀ nameservers fetched, fetched.findSome? Url.parse? = some url →
        ∀ n ∈ nameservers, IsQuery n.ldhName → ∃ e ∈ nameserverEdges nameservers fetched,
          e.query = ⟨"rdap-nameserver", .search, url.join .nameserver n.ldhName, "global"⟩ ∧
          ∀ c world s ignoreCache, Reachable c world s →
            let run := (execute c e.query ignoreCache).run world s
            let recalled? := (Task.ofQuery c .nameserver e.query ignoreCache).recalled? s
            if root ∈ ["http:", "https:"] then IsMalformed run.1 ∧ run.2.requests = s.requests
            else ¬IsMalformed run.1 ∧ run.2.requests =
              s.requests ++ if recalled? = none then [.rdap ⟨.nameserver, n.ldhName, some root⟩] else [] := by
  obtain ⟨root, count, hroot, hlast⟩ := Rdap.Url.exists_trimmed url.root
  have hjoin (kind : Kind) {query : String} (hquery : IsQuery query) : Url.parse? (url.join kind query) = _ :=
    Rdap.Url.parse?_join h hroot hlast kind hquery
  refine ⟨root, count, hroot, hlast, fun kind _ => hjoin kind, fun nameservers fetched hfetched n hn hname => ?_⟩
  let e : Edge := .searching .nameserver (url.join .nameserver n.ldhName) globalScope .inbound
  have hedge : e ∈ nameserverEdges nameservers fetched := by
    simp only [nameserverEdges, hfetched, List.mem_map, List.mem_filter]
    exact ⟨n, ⟨hn, decide_eq_true hname.ne_empty⟩, rfl⟩
  refine ⟨e, hedge, rfl, fun c world s ignoreCache hs => ?_⟩
  dsimp only
  by_cases hbare : root ∈ ["http:", "https:"]
  · rw [if_pos hbare]
    have hnone := hjoin .nameserver hname
    rw [if_pos hbare] at hnone
    refine malformed_of_cannotRead hs (ItemType.ofName?_name .nameserver) rfl rfl ?_
    intro other hother
    rw [show e.query.text = url.join .nameserver n.ldhName from rfl, hnone] at hother
    cases hother
  · rw [if_neg hbare]
    have hsome := hjoin .nameserver hname
    rw [if_neg hbare] at hsome
    exact Nameservers.run_search hs hsome

/-- A domain was found on a server whose root ends in a slash. Its nameserver is asked for there, without that slash. -/
theorem joined_url_leads_to_slashed_server :
    let nameserver : Nameserver := { ldhName := "NS1.EXAMPLE.NET" }
    let fetched := ["", "https://rdap.net/v1//domain/EXAMPLE.NET"]
    let query : Query := ⟨"rdap-nameserver", .search, "https://rdap.net/v1/nameserver/NS1.EXAMPLE.NET", "global"⟩
    Reachable {} (fun _ _ => none) {} ∧ IsQuery nameserver.ldhName ∧
      (∃ e ∈ nameserverEdges [nameserver] fetched, e.query = query) ∧
      ((execute {} query false).run (fun _ _ => none) {}).2.requests =
        [.rdap ⟨.nameserver, "NS1.EXAMPLE.NET", some "https://rdap.net/v1"⟩] := by
  intro nameserver fetched query
  let url : Url := ⟨"https://rdap.net/v1/", .domain, "EXAMPLE.NET"⟩
  have hurl : Url.parse? "https://rdap.net/v1//domain/EXAMPLE.NET" = some url := by decide +kernel
  have hname : IsQuery nameserver.ldhName := ⟨by decide, by decide⟩
  have hs : Reachable {} (fun _ _ => none) {} := Reachable.fresh 0
  obtain ⟨root, count, -, -, hjoin, hedges⟩ := joined_url_leads_to_server hurl
  have hread : Url.parse? (url.join .nameserver nameserver.ldhName) =
      some ⟨"https://rdap.net/v1", .nameserver, "NS1.EXAMPLE.NET"⟩ := by decide +kernel
  have hsplit := hjoin .nameserver _ hname
  rw [hread] at hsplit
  split at hsplit
  · cases hsplit
  · rename_i hbare
    cases hsplit
    have hfetched : fetched.findSome? Url.parse? = some url := by decide +kernel
    obtain ⟨e, he, hquery, hrun⟩ := hedges [nameserver] fetched hfetched nameserver List.mem_cons_self hname
    have hjoined : url.join .nameserver nameserver.ldhName = query.text := by decide +kernel
    rw [hjoined] at hquery
    change e.query = query at hquery
    have hrecalled : (Task.ofQuery {} .nameserver query false).recalled? {} = none := rfl
    obtain ⟨-, hrequests⟩ := if_neg hbare ▸ hrun {} (fun _ _ => none) {} false hs
    rw [hquery, if_pos hrecalled] at hrequests
    exact ⟨hs, hname, ⟨e, he, hquery⟩, hrequests⟩

/-- The server of a domain has a root of only a scheme and slashes. The URL of its nameserver cannot be read, and searching by
it asks nobody. -/
theorem joined_url_loses_bare_root :
    let text := "http:////domain/example.net"
    let query : Query := ⟨"rdap-nameserver", .search, "http:/nameserver/NS1", "global"⟩
    let run := (execute {} query false).run (fun _ _ => none) {}
    ∃ url, Url.parse? text = some url ∧ url.root = "http:" ++ slashes 3 ∧ IsQuery "NS1" ∧
      url.join .nameserver "NS1" = "http:/nameserver/NS1" ∧ Url.parse? (url.join .nameserver "NS1") = none ∧
      (nameserverEdges [{ ldhName := "NS1" }] [text]).map Edge.query = [query] ∧
      Reachable {} (fun _ _ => none) {} ∧ IsMalformed run.1 ∧ run.2.requests = [] := by
  intro text query run
  exact ⟨⟨"http:///", .domain, "example.net"⟩, by decide +kernel, by decide, ⟨by decide, by decide⟩, by decide +kernel,
    by decide +kernel, by decide +kernel, Reachable.fresh 0, by decide +kernel, by decide +kernel⟩

end AssetGraph.Resolve

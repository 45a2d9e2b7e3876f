import AssetGraph.Proofs.Address.Notation
import AssetGraph.Proofs.Resolve.Identification

/-!
# Getting addresses

An address is got by each of its spellings and has one item, which is known by the canonical text of the address. An IPv4 address
written as IPv6 has the item of the IPv4 address, and no other addresses share an item. The edges to the addresses of a name and to
the address of a web server are got as these addresses.
-/
namespace AssetGraph

namespace Address

variable {a b : Address} {scope : String}

theorem render_inj : a.render = b.render ↔ a = b := by
  constructor
  · intro h
    have hread := parse?_render a
    rw [h, parse?_render, Option.some.injEq] at hread
    exact hread.symm
  · exact congrArg render

theorem uniqueValue?_item (a : Address) (scope : String) : (a.item scope).uniqueValue? = some a.unmap.render :=
  Item.uniqueValue?_eq a.get?_ip

theorem item_unmap (a : Address) (scope : String) : a.unmap.item scope = a.item scope := by
  simp only [item, properties, unmap_unmap]

theorem item_eq_item_iff : a.item scope = b.item scope ↔ a.unmap = b.unmap := by
  constructor
  · intro h
    have hvalue := congrArg Item.uniqueValue? h
    rw [uniqueValue?_item, uniqueValue?_item, Option.some.injEq] at hvalue
    exact render_inj.mp hvalue
  · intro h
    rw [← item_unmap, h, item_unmap]

theorem defect?_item (a : Address) (h : scope ≠ "") : (a.item scope).defect? = none := by
  have htype : (a.item scope).type ≠ "" := (by decide : ItemType.ip.name ≠ "")
  have hunique : (a.item scope).uniqueAttribute ≠ "" := (by decide : "ip" ≠ "")
  rw [Item.defect?_eq htype h hunique, uniqueValue?_item, Option.getD_some, if_neg (render_ne_empty _)]

end Address

theorem Dns.mem_addressEdges_iff {owner : String} {rs : List Record} {e : Edge} :
    e ∈ (addressItem owner rs).edges ∧ e.query.type = "ip" ↔
      ∃ r ∈ rs, ∃ a, r.address? = some a ∧ e = .getting .ip a.render globalScope .both := by
  constructor
  · rintro ⟨he, htype⟩
    rcases List.mem_append.mp he with haddress | hdomain
    · obtain ⟨entry, hentry, rfl⟩ := List.mem_map.mp haddress
      obtain ⟨r, hr, hread⟩ := List.mem_filterMap.mp (List.mem_mergeSort.mp hentry)
      obtain ⟨a, ha, rfl⟩ := Option.map_eq_some_iff.mp hread
      exact ⟨r, hr, a, ha, rfl⟩
    · rw [List.mem_singleton.mp hdomain] at htype
      exact absurd htype (by decide : ItemType.domain.name ≠ "ip")
  · rintro ⟨r, hr, a, ha, rfl⟩
    refine ⟨List.mem_append_left _ (List.mem_map.mpr ⟨⟨r.type.word, a.render, r.ttl⟩, ?_, rfl⟩), rfl⟩
    exact List.mem_mergeSort.mpr (List.mem_filterMap.mpr ⟨r, hr, congrArg (Option.map _) ha⟩)

theorem Http.mem_hostEdge_iff {scope url : String} {t : Target} {r : Response} {e : Edge} :
    e ∈ (responseItem scope url t r).edges ∧ e.query.type = "ip" ↔
      ∃ a, Address.parse? t.host = some a ∧ e = .getting .ip a.render scope .inbound := by
  constructor
  · rintro ⟨he, htype⟩
    rcases List.mem_cons.mp he with rfl | hredirect
    · unfold Target.hostEdge at htype ⊢
      cases hhost : Address.parse? t.host with
      | some a => exact ⟨a, rfl, rfl⟩
      | none =>
        rw [hhost] at htype
        exact absurd htype (by decide : ItemType.dns.name ≠ "ip")
    · unfold redirectEdge at hredirect
      split at hredirect
      · obtain ⟨next, -, rfl⟩ := Option.map_eq_some_iff.mp (Option.mem_toList.mp hredirect)
        exact absurd htype (by decide : ItemType.http.name ≠ "ip")
      · cases hredirect
  · rintro ⟨a, ha, rfl⟩
    have hhost : t.hostEdge scope = .getting .ip a.render scope .inbound := by rw [Target.hostEdge, ha]
    exact ⟨hhost ▸ List.mem_cons_self, rfl⟩

namespace Resolve.Addresses

variable {c : Config} {world : World} {s : State} {text : String} {ignoreCache : Bool} {a : Address} {items : List Item}

theorem run_get (c : Config) (world : World) (s : State) (text : String) (ignoreCache : Bool) :
    (execute c ⟨"ip", .get, text, "global"⟩ ignoreCache).run world s =
      (some (match Address.parse? text with
        | some a => .ok [a.item "global"]
        | none => .error ((Cause.notAnAddress text).within .ip "global")), s) := by
  have hservice : (Task.ofQuery c .ip ⟨"ip", .get, text, "global"⟩ ignoreCache).service c =
      match Address.parse? text with
      | some a => .answer (.ok [a.item "global"])
      | none => .answer (.error ((Cause.notAnAddress text).within .ip "global")) := rfl
  rw [execute_known c (ItemType.ofName?_name .ip), hservice]
  cases Address.parse? text <;> rfl

theorem run_of_parse? (h : Address.parse? text = some a) :
    (execute c ⟨"ip", .get, text, "global"⟩ ignoreCache).run world s = (some (.ok [a.item "global"]), s) := by
  rw [run_get, h]

theorem result_eq_ok_iff :
    ((execute c ⟨"ip", .get, text, "global"⟩ ignoreCache).run world s).1 = some (.ok items) ↔
      ∃ a, Address.parse? text = some a ∧ items = [a.item "global"] := by
  rw [run_get, Option.some.injEq]
  cases Address.parse? text with
  | some a => simp [eq_comm]
  | none => simp

/-- Getting an address gives one item exactly when the text is an address. Getting the address again by the text that its item is
known by gives the same item, at any time. Two items are the same exactly when their texts spell one address, where an IPv4 address
written as IPv6 counts as the IPv4 address. -/
theorem spellings_share_item (c : Config) (world : World) (s s' : State) (ignoreCache : Bool) :
    let get (text : String) (s : State) := ((execute c ⟨"ip", .get, text, "global"⟩ ignoreCache).run world s).1
    (∀ text, (∃ items, get text s = some (.ok items)) ↔ ∃ a, Address.parse? text = some a) ∧
    (∀ text items, get text s = some (.ok items) →
      ∃ item value, items = [item] ∧ item.uniqueValue? = some value ∧ get value s' = some (.ok [item])) ∧
    ∀ text text' item item', get text s = some (.ok [item]) → get text' s' = some (.ok [item']) →
      (item = item' ↔ (Address.parse? text).map Address.unmap = (Address.parse? text').map Address.unmap) := by
  intro get
  refine ⟨fun text => ⟨?_, ?_⟩, fun text items h => ?_, fun text text' item item' h h' => ?_⟩
  · rintro ⟨items, h⟩
    obtain ⟨a, ha, -⟩ := result_eq_ok_iff.mp h
    exact ⟨a, ha⟩
  · rintro ⟨a, ha⟩
    exact ⟨_, result_eq_ok_iff.mpr ⟨a, ha, rfl⟩⟩
  · obtain ⟨a, -, rfl⟩ := result_eq_ok_iff.mp h
    refine ⟨_, _, rfl, a.uniqueValue?_item "global", result_eq_ok_iff.mpr ⟨a.unmap, Address.parse?_render _, ?_⟩⟩
    rw [Address.item_unmap]
  · obtain ⟨a, ha, hitem⟩ := result_eq_ok_iff.mp h
    obtain ⟨b, hb, hitem'⟩ := result_eq_ok_iff.mp h'
    cases hitem
    cases hitem'
    rw [Address.item_eq_item_iff, ha, hb, Option.map_some, Option.map_some, Option.some.injEq]

/-- Two spellings of an IPv4-mapped address share the item of the IPv4 address, which its text leads back to. The IPv6 address of the
same number has another item. -/
theorem spellings_share_item_mapped :
    let get (text : String) := ((execute {} ⟨"ip", .get, text, "global"⟩ false).run (fun _ _ => none) {}).1
    let item := (Address.mapped 0xC0000201#32).item "global"
    let other := (Address.v6 0xC0000201#128).item "global"
    get "0:0::FFFF:c000:0201" = some (.ok [item]) ∧ get "::ffff:192.0.2.1" = some (.ok [item]) ∧
      item.uniqueValue? = some "192.0.2.1" ∧ get "192.0.2.1" = some (.ok [item]) ∧
      get "::192.0.2.1" = some (.ok [other]) ∧ item ≠ other := by
  intro get item other
  have hgroups : Address.parse? "0:0::FFFF:c000:0201" = some (.mapped 0xC0000201#32) := by decide +kernel
  have hdotted : Address.parse? "::ffff:192.0.2.1" = some (.mapped 0xC0000201#32) := by decide +kernel
  have hnumber : Address.parse? "::192.0.2.1" = some (.v6 0xC0000201#128) := by decide +kernel
  have hitem : get "0:0::FFFF:c000:0201" = some (.ok [item]) := result_eq_ok_iff.mpr ⟨_, hgroups, rfl⟩
  have hother : get "::192.0.2.1" = some (.ok [other]) := result_eq_ok_iff.mpr ⟨_, hnumber, rfl⟩
  have hvalue : item.uniqueValue? = some "192.0.2.1" := by decide +kernel
  obtain ⟨-, hagain, hsame⟩ := spellings_share_item {} (fun _ _ => none) {} {} false
  obtain ⟨found, value, hfound, hfoundValue, hback⟩ := hagain _ _ hitem
  cases hfound
  cases hvalue.symm.trans hfoundValue
  have hdiffer : item ≠ other := mt (hsame _ _ _ _ hitem hother).mp (by rw [hgroups, hnumber]; decide)
  exact ⟨hitem, result_eq_ok_iff.mpr ⟨_, hdotted, rfl⟩, hvalue, hback, hother, hdiffer⟩

/-- Whether getting an edge finds an address: one item that lacks nothing and is known by the text of the address, with nothing
asked, kept or changed. -/
def Finds (e : Edge) (a : Address) : Prop :=
  ∃ item : Item, item.defect? = none ∧ item.uniqueValue? = some a.unmap.render ∧
    ∀ c world s ignoreCache, (execute c e.query ignoreCache).run world s = (some (.ok [item]), s)

theorem finds_getting (a : Address) (propagation : Propagation) :
    Finds (.getting .ip a.render globalScope propagation) a :=
  ⟨a.item "global", a.defect?_item (by decide), a.uniqueValue?_item "global",
    fun _ _ _ _ => run_of_parse? (Address.parse?_render a)⟩

/-- The text of an address is that of its item, except when it is an IPv4 address written as IPv6. -/
theorem render_unmap_iff (a : Address) : a.unmap.render = a.render ↔ ¬a.IsMapped := by
  rw [Address.render_inj, Address.isMapped_iff, not_not]

/-- Every edge of a name to an address finds the address of a record of the name, and the edge of a page to an address finds the
address that is the host of the page. Such an edge is there for every record with an address and for every page whose host is an
address. What is found is known by the text of the edge exactly when the address is no IPv4 address written as IPv6; such an
address is known by the text of the IPv4 address. -/
theorem edges_find_addresses :
    (∀ owner rs, ∀ e ∈ (Dns.addressItem owner rs).edges, e.query.type = "ip" → ∃ r ∈ rs, ∃ a, r.address? = some a ∧
      e.query.text = a.render ∧ Finds e a ∧ (a.unmap.render = e.query.text ↔ ¬a.IsMapped)) ∧
    (∀ owner rs, ∀ r ∈ rs, ∀ a, r.address? = some a →
      ∃ e ∈ (Dns.addressItem owner rs).edges, e.query.type = "ip" ∧ Finds e a) ∧
    (∀ url t r, Http.Target.parse? url = some t → ∀ e ∈ (Http.responseItem "global" url t r).edges, e.query.type = "ip" →
      ∃ a, Address.parse? t.host = some a ∧ e.query.text = a.render ∧ Finds e a ∧
        (a.unmap.render = e.query.text ↔ ¬a.IsMapped)) ∧
    ∀ url t r a, Http.Target.parse? url = some t → Address.parse? t.host = some a →
      ∃ e ∈ (Http.responseItem "global" url t r).edges, e.query.type = "ip" ∧ Finds e a := by
  refine ⟨fun owner rs e he htype => ?_, fun owner rs r hr a ha => ?_, fun url t r _ e he htype => ?_,
    fun url t r a _ ha => ?_⟩
  · obtain ⟨r, hr, a, ha, rfl⟩ := Dns.mem_addressEdges_iff.mp ⟨he, htype⟩
    exact ⟨r, hr, a, ha, rfl, finds_getting a .both, render_unmap_iff a⟩
  · obtain ⟨he, htype⟩ := Dns.mem_addressEdges_iff.mpr ⟨r, hr, a, ha, rfl⟩
    exact ⟨_, he, htype, finds_getting a .both⟩
  · obtain ⟨a, ha, rfl⟩ := Http.mem_hostEdge_iff.mp ⟨he, htype⟩
    exact ⟨a, ha, rfl, finds_getting a .inbound, render_unmap_iff a⟩
  · obtain ⟨he, htype⟩ := Http.mem_hostEdge_iff.mpr ⟨a, ha, rfl⟩
    exact ⟨_, he, htype, finds_getting a .inbound⟩

/-- An IPv6 address of a name and the same address as the host of a page, spelled in another way, are found by its text. -/
theorem edges_find_plain_address :
    let a : Address := .v6 0x20010DB8000000000000000000000001#128
    let rs : List Dns.Record := [⟨"a.example.", 60, .a 0xC0000201#32⟩, ⟨"a.example.", 60, .aaaa 0x20010DB8000000000000000000000001#128⟩]
    let t : Http.Target := ⟨"http://me@[2001:0DB8:0::1]:8080", "http", "2001:0db8:0::1"⟩
    let r : Http.Response := ⟨204, "204 No Content", "HTTP/1.1", [], [], none⟩
    let edge (propagation : Propagation) : Edge := ⟨⟨"ip", .get, "2001:db8::1", "global"⟩, propagation⟩
    edge .both ∈ (Dns.addressItem "a.example" rs).edges ∧ Finds (edge .both) a ∧
      Http.Target.parse? "http://me@[2001:0DB8:0::1]:8080/" = some t ∧
      edge .inbound ∈ (Http.responseItem "global" "http://me@[2001:0DB8:0::1]:8080/" t r).edges ∧ Finds (edge .inbound) a ∧
      a.unmap.render = "2001:db8::1" := by
  intro a rs t r edge
  have htext : a.render = "2001:db8::1" := by decide +kernel
  have hplain : ¬a.IsMapped := by decide
  have htarget : Http.Target.parse? "http://me@[2001:0DB8:0::1]:8080/" = some t := by decide +kernel
  have hhost : Address.parse? t.host = some a := by decide +kernel
  have hedge (propagation : Propagation) : edge propagation = .getting .ip a.render globalScope propagation := by
    rw [htext]
    rfl
  have hname : edge .both ∈ (Dns.addressItem "a.example" rs).edges :=
    (Dns.mem_addressEdges_iff.mpr ⟨_, List.mem_cons_of_mem _ List.mem_cons_self, a, rfl, hedge .both⟩).1
  have hpage : edge .inbound ∈ (Http.responseItem "global" "http://me@[2001:0DB8:0::1]:8080/" t r).edges :=
    (Http.mem_hostEdge_iff.mpr ⟨a, hhost, hedge .inbound⟩).1
  obtain ⟨hnames, -, hpages, -⟩ := edges_find_addresses
  obtain ⟨_, -, b, -, hb, hfinds, hiff⟩ := hnames "a.example" rs _ hname rfl
  have hsame : b = a := Address.render_inj.mp (hb.symm.trans htext.symm)
  subst hsame
  obtain ⟨b', hb', -, hfinds', -⟩ := hpages _ t r htarget _ hpage rfl
  cases hhost.symm.trans hb'
  exact ⟨hname, hfinds, htarget, hpage, hfinds', hiff.mpr hplain⟩

/-- An IPv4 address that a name or a page has in its form for IPv6 is found, but known by another text than that of the edge. -/
theorem mapped_address_found_by_other_text :
    let a := Address.mapped 0xC0000201#32
    let edge (propagation : Propagation) : Edge := ⟨⟨"ip", .get, "::ffff:192.0.2.1", "global"⟩, propagation⟩
    let t : Http.Target := ⟨"http://[::ffff:192.0.2.1]", "http", "::ffff:192.0.2.1"⟩
    let r : Http.Response := ⟨204, "204 No Content", "HTTP/1.1", [], [], none⟩
    let record : Dns.Record := ⟨"mapped.example.", 60, .aaaa (0xFFFF#96 ++ 0xC0000201#32)⟩
    edge .both ∈ (Dns.addressItem "mapped.example" [record]).edges ∧
      Http.Target.parse? "http://[::ffff:192.0.2.1]/" = some t ∧
      edge .inbound ∈ (Http.responseItem "global" "http://[::ffff:192.0.2.1]/" t r).edges ∧
      (∀ propagation, (execute {} (edge propagation).query false).run (fun _ _ => none) {} = (some (.ok [a.item "global"]), {})) ∧
      (a.item "global").defect? = none ∧ (a.item "global").uniqueValue? = some "192.0.2.1" ∧
      ∀ propagation, (a.item "global").uniqueValue? ≠ some (edge propagation).query.text := by
  intro a edge t r record
  have htext : a.render = "::ffff:192.0.2.1" := by decide +kernel
  have hread : Address.parse? "::ffff:192.0.2.1" = some a := by decide +kernel
  have hvalue : (a.item "global").uniqueValue? = some "192.0.2.1" := by decide +kernel
  have hedge (propagation : Propagation) : edge propagation = .getting .ip a.render globalScope propagation := by
    rw [htext]
    rfl
  have hname : edge .both ∈ (Dns.addressItem "mapped.example" [record]).edges :=
    (Dns.mem_addressEdges_iff.mpr ⟨record, List.mem_singleton_self _, a, rfl, hedge .both⟩).1
  have hpage : edge .inbound ∈ (Http.responseItem "global" "http://[::ffff:192.0.2.1]/" t r).edges :=
    (Http.mem_hostEdge_iff.mpr ⟨a, hread, hedge .inbound⟩).1
  refine ⟨hname, by decide +kernel, hpage, fun _ => run_of_parse? hread, a.defect?_item (by decide), hvalue, fun _ => ?_⟩
  rw [hvalue]
  exact (by decide : some "192.0.2.1" ≠ some "::ffff:192.0.2.1")

end Resolve.Addresses
end AssetGraph

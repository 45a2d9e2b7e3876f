import AssetGraph.Proofs.Item.Attributes

/-!
# Items read as they were written

Queries, edges, attributes and items are read from JSON as they were written to it, and what is written lists its members in order. So
an item that is read in one of the other forms, as an array of its fields or without edges, is the same one after it is written and
read again.
-/
namespace AssetGraph

open Json

theorem Method.ofWord?_word (m : Method) : ofWord? m.word = some m := by cases m <;> rfl

theorem Method.decode_toJson (m : Method) : decode m.toJson = .ok m := by
  rw [toJson, decode, ofWord?_word]
  rfl

theorem Query.decode_toJson (q : Query) : decode q.toJson = .ok q := by
  have hfields : fields? ["type", "method", "query", "scope"] q.toJson =
      some [some (string q.type), some q.method.toJson, some (string q.text), some (string q.scope)] := rfl
  rw [decode, hfields]
  dsimp only
  rw [Method.decode_toJson]
  rfl

theorem Propagation.decode_toJson (p : Propagation) : decode p.toJson = .ok p := rfl

theorem Edge.decode_toJson (e : Edge) : decode e.toJson = .ok e := by
  have hfields : fields? ["query", "blastPropagation"] e.toJson = some [some e.query.toJson, some e.propagation.toJson] := rfl
  rw [decode, hfields]
  dsimp only
  rw [Query.decode_toJson, Propagation.decode_toJson]
  rfl

theorem Attributes.decode_toJson (as : Attributes) : decode (toJson as) = .ok as := by
  rw [toJson, decode, Keyed.ofList_entries]

theorem Query.isOrdered_toJson (q : Query) : q.toJson.isOrdered = true := by
  have hnames : ["method", "query", "scope", "type"].Pairwise (· < ·) := by decide
  refine isOrdered_object.mpr ⟨hnames, ?_⟩
  simp only [List.forall_mem_cons]
  exact ⟨rfl, rfl, rfl, rfl, List.forall_mem_nil _⟩

theorem Propagation.isOrdered_toJson (p : Propagation) : p.toJson.isOrdered = true := by
  have hnames : ["in", "out"].Pairwise (· < ·) := by decide
  refine isOrdered_object.mpr ⟨hnames, ?_⟩
  simp only [List.forall_mem_cons]
  exact ⟨rfl, rfl, List.forall_mem_nil _⟩

theorem Edge.isOrdered_toJson (e : Edge) : e.toJson.isOrdered = true := by
  have hnames : ["blastPropagation", "query"].Pairwise (· < ·) := by decide
  refine isOrdered_object.mpr ⟨hnames, ?_⟩
  simp only [List.forall_mem_cons]
  exact ⟨e.propagation.isOrdered_toJson, e.query.isOrdered_toJson, List.forall_mem_nil _⟩

namespace Item

theorem decodeList_edges (es : List Edge) : decodeList Edge.decode (array (es.map Edge.toJson)) = .ok es := by
  rw [decodeList, mapM_eq_ok_iff, List.forall₂_map_left_iff, List.forall₂_same]
  exact fun e _ => e.decode_toJson

theorem decode_toJson (item : Item) : decode item.toJson = .ok item := by
  have hfields : fields? ["type", "scope", "uniqueAttribute", "attributes", "linkedItemQueries"] item.toJson =
      some [some (string item.type), some (string item.scope), some (string item.uniqueAttribute),
        some (Attributes.toJson item.attributes), some (array (item.edges.map Edge.toJson))] := rfl
  rw [decode, hfields]
  dsimp only
  rw [Attributes.decode_toJson, Option.map_some, Option.getD_some, decodeList_edges]
  rfl

theorem isOrdered_toJson {item : Item} (h : ∀ name v, item.attributes.get? name = some v → v.isOrdered = true) :
    item.toJson.isOrdered = true := by
  have hattributes : (Attributes.toJson item.attributes).isOrdered = true :=
    isOrdered_object.mpr ⟨item.attributes.pairwise_keys, fun m hm => h m.1 m.2 (Keyed.mem_entries_iff.mp hm)⟩
  have hedges : (array (item.edges.map Edge.toJson)).isOrdered = true := by
    refine isOrdered_array.mpr fun j hj => ?_
    obtain ⟨e, -, rfl⟩ := List.mem_map.mp hj
    exact e.isOrdered_toJson
  have hnames : ["attributes", "linkedItemQueries", "scope", "type", "uniqueAttribute"].Pairwise (· < ·) := by decide
  refine isOrdered_object.mpr ⟨hnames, ?_⟩
  simp only [List.forall_mem_cons]
  exact ⟨hattributes, hedges, rfl, rfl, rfl, List.forall_mem_nil _⟩

theorem isOrdered_of_mem_itemMembers {j : Json} (hj : j.isOrdered = true) {m : String × Json}
    (hm : m ∈ Attributes.itemMembers j) : m.2.isOrdered = true := by
  unfold Attributes.itemMembers at hm
  split at hm
  · rename_i type scope unique attributes edges hfields
    have hattributes : attributes.isOrdered = true := isOrdered_of_fields? hj hfields (by simp)
    cases attributes with
    | object members => exact (isOrdered_object.mp hattributes).2 m hm
    | null | bool _ | number _ | string _ | array _ => cases hm
  · cases hm

theorem isOrdered_of_get? {j : Json} {item : Item} (hj : j.isOrdered = true) (h : decode j = .ok item) {name : String} {v : Json}
    (hv : item.attributes.get? name = some v) : v.isOrdered = true := by
  have hlast : Attributes.IsLastRead (Attributes.itemMembers j) name v :=
    (Attributes.get?_of_decode (Attributes.decode_itemMembers h)).mp hv
  obtain ⟨before, after, hmembers, -⟩ := hlast
  have hmember : (name, v) ∈ Attributes.itemMembers j := hmembers ▸ List.mem_append_right before List.mem_cons_self
  exact isOrdered_of_mem_itemMembers hj hmember

/-- An item is read as it was written, which lists its members in order if the values of its attributes do, as those of an item do
that is read from a text. So what is read as an item in any form is written so that it is read as the same item, with the same
identity, reference and defect. -/
theorem read_as_written :
    (∀ item, decode (toJson item) = .ok item) ∧
    (∀ item : Item, (∀ name v, item.attributes.get? name = some v → v.isOrdered = true) → item.toJson.isOrdered = true) ∧
    (∀ s j item, Json.parse? s = some j → decode j = .ok item → item.toJson.isOrdered = true) ∧
    ∀ j item, decode j = .ok item → ∃ again, decode item.toJson = .ok again ∧ again = item ∧
      again.defect? = item.defect? ∧ again.uniqueValue? = item.uniqueValue? ∧ again.reference? = item.reference? :=
  ⟨decode_toJson, fun _ => isOrdered_toJson,
    fun _ _ _ hs h => isOrdered_toJson fun _ _ => isOrdered_of_get? (isOrdered_of_parse? hs) h,
    fun _ item _ => ⟨item, decode_toJson item, rfl, rfl, rfl, rfl⟩⟩

/-- An item that is written as the array of its fields, without edges and with an attribute that says null. -/
theorem read_as_written_array :
    let s := "[\"ip\",\"global\",\"ip\",\x7b\"private\":null,\"ip\":\"192.0.2.1\"\x7d]"
    let j := array [string "ip", string "global", string "ip", object [("ip", string "192.0.2.1"), ("private", null)]]
    let item : Item := ⟨"ip", "global", "ip", Keyed.ofList [("ip", string "192.0.2.1"), ("private", null)], []⟩
    Json.parse? s = some j ∧ decode j = .ok item ∧ (∀ name v, item.attributes.get? name = some v → v.isOrdered = true) ∧
      item.toJson.isOrdered = true ∧ ∃ again, decode item.toJson = .ok again ∧ again = item ∧ again.defect? = none ∧
        again.reference? = some "ip/global/192.0.2.1" := by
  intro s j item
  have hparse : Json.parse? s = some j := by decide +kernel
  have hdecode : decode j = .ok item := rfl
  have hvalues : ∀ e ∈ item.attributes.entries, e.2.isOrdered = true := by decide
  have hordered (name : String) (v : Json) (hv : item.attributes.get? name = some v) : v.isOrdered = true :=
    hvalues (name, v) (Keyed.mem_entries_iff.mpr hv)
  obtain ⟨-, -, htoJson, hagain⟩ := read_as_written
  obtain ⟨again, hread, hsame, hdefect, -, hreference⟩ := hagain j item hdecode
  exact ⟨hparse, hdecode, hordered, htoJson s j item hparse hdecode, again, hread, hsame, hdefect, hreference⟩

end Item
end AssetGraph

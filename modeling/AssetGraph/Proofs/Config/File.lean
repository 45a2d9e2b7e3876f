import AssetGraph.Config.File
import AssetGraph.Proofs.Address.Endpoint
import AssetGraph.Proofs.Config.Check
import AssetGraph.Proofs.Yaml.Fields

/-!
# Settings written to a file and read again

A file of settings has a line for each setting and a line for each server. What is read from it are the same settings, if they can be
used.
-/
namespace AssetGraph.Config

open Yaml (Content Document Fields Key Line Node PlainWord Unbroken)

variable {c : Config} {words : List Unbroken}

def flagWord : Bool → PlainWord
  | true => .ofLetters "true".toList (by decide) (by decide)
  | false => .ofLetters "false".toList (by decide) (by decide)

def lifetimeFields (c : Config) : Fields :=
  .word (.ofLetters "rdap_ttl_secs" (by decide)) (.ofNat c.rdapTtl) <| .word (.ofLetters "dns_ttl_secs" (by decide)) (.ofNat c.dnsTtl) <|
    .word (.ofLetters "http_ttl_secs" (by decide)) (.ofNat c.httpTtl) .nil

def lookupFields (c : Config) (words : List Unbroken) : Fields :=
  .word (.ofLetters "reverse_lookup" (by decide)) (flagWord c.reverseLookup) <| .list (.ofLetters "servers" (by decide)) words .nil

def fileFields (c : Config) (words : List Unbroken) : Fields :=
  .word (.ofLetters "version" (by decide)) (.ofLetters ['1'] (by decide) (by decide)) <|
    .block (.ofLetters "cache" (by decide)) (lifetimeFields c) <| .block (.ofLetters "dns" (by decide)) (lookupFields c words) .nil

section Writing

theorem writeServer_text (word : Unbroken) : writeServer word.text = Line.write ⟨2, none, word.content⟩ := by
  have hcontent := word.write_content 4
  simp only [writeServer, Line.write, Line.body, Line.mark, List.append_assoc, hcontent]
  rfl

theorem writeServers_texts (words : List Unbroken) :
    writeServers (words.map Unbroken.text) =
      (Line.mk 2 (some (.ofLetters "servers" (by decide))) (Fields.itemsContent words) :: Fields.itemLines 2 words).flatMap Line.write := by
  cases words with
  | nil => rfl
  | cons word words =>
    have hitems : ((word :: words).map Unbroken.text).flatMap writeServer = (Fields.itemLines 2 (word :: words)).flatMap Line.write := by
      simp only [Fields.itemLines, List.flatMap_map, writeServer_text]
    rw [List.flatMap_cons, ← hitems]
    rfl

theorem writeLifetime_eq {name : String} (key : Key) (n : Nat) (hname : name.toList = ' ' :: ' ' :: key.chars) :
    writeLifetime name n = Line.write ⟨2, some key, .plain (.ofNat n)⟩ := by
  rw [writeLifetime, hname]
  simp [Line.write, Line.body, Line.mark, Content.write, PlainWord.ofNat, PlainWord.ofLetters, List.replicate]

theorem toYaml_eq (hwords : words.map Unbroken.text = c.servers) :
    toYaml c = String.ofList (((fileFields c words).lines 0).flatMap Line.write) := by
  have hhead : "version: 1\ncache:\n".toList =
      Line.write ⟨0, some (.ofLetters "version" (by decide)), .plain (.ofLetters ['1'] (by decide) (by decide))⟩ ++
        Line.write ⟨0, some (.ofLetters "cache" (by decide)), .nothing⟩ := rfl
  have hlookup : "dns:\n  reverse_lookup: ".toList ++ (if c.reverseLookup then "true\n" else "false\n").toList =
      Line.write ⟨0, some (.ofLetters "dns" (by decide)), .nothing⟩ ++
        Line.write ⟨2, some (.ofLetters "reverse_lookup" (by decide)), .plain (flagWord c.reverseLookup)⟩ := by
    cases c.reverseLookup <;> rfl
  unfold toYaml
  rw [List.append_assoc _ "dns:\n  reverse_lookup: ".toList, hhead, hlookup, ← hwords, writeServers_texts,
    writeLifetime_eq (.ofLetters "rdap_ttl_secs" (by decide)) c.rdapTtl rfl,
    writeLifetime_eq (.ofLetters "dns_ttl_secs" (by decide)) c.dnsTtl rfl,
    writeLifetime_eq (.ofLetters "http_ttl_secs" (by decide)) c.httpTtl rfl]
  simp only [fileFields, lifetimeFields, lookupFields, Fields.lines, List.flatMap_cons, List.cons_append, List.nil_append,
    List.append_assoc, List.append_nil]

end Writing

section Reading

variable {d : Document} {names : List String} {fields : Fields}

/-- The fields of a mapping are found by their names, each of which is one of those that may be used. -/
theorem fields?_entriesOf (hnames : ∀ field ∈ fields.nodes, field.1 ∈ names) (hnodup : (fields.nodes.map (·.1)).Nodup) :
    d.fields? names (.mapping (Node.entriesOf fields.nodes)) = some fields.nodes := by
  have hallowed : (fields.nodes.map (·.1)).all names.contains = true := by
    rw [List.all_map, List.all_eq_true]
    exact fun field hfield => List.contains_iff_mem.mpr (hnames field hfield)
  unfold Document.fields? Node.entriesOf
  dsimp only
  rw [Text.mapM_map_eq_some]
  · simp only [bind, Option.bind_some, hallowed, hnodup, decide_true, Bool.and_self, if_true]
  · exact fun field hfield => congrArg (fun value => some (field.1, value)) (Fields.follow_of_mem_nodes hfield)

theorem natural?_ofNat {n bound : Nat} (h : n < bound) : Node.natural? bound (.scalar { text := (PlainWord.ofNat n).text }) = some n :=
  Yaml.Word.natural?_text h

theorem boolean?_flagWord (flag : Bool) : Node.boolean? (.scalar { text := (flagWord flag).text }) = some flag := by
  cases flag <;> decide

theorem readServers?_itemsNode (d : Document) (words : List Unbroken) :
    readServers? d (Fields.itemsNode words) = some (words.map Unbroken.text) := by
  have htexts : (((words.map Unbroken.scalar).map Node.scalar).map d.follow).mapM Node.text? = some (words.map Unbroken.text) := by
    induction words with
    | nil => rfl
    | cons word words ih =>
      rw [List.map_cons, List.map_cons, List.map_cons, List.mapM_cons, ih]
      rfl
  exact htexts

theorem readLifetimes?_fields (c settings : Config) (d : Document) (h : ∀ ttl ∈ c.lifetimes, ttl.2 < Numeral.limit 64) :
    settings.readLifetimes? d (.mapping (Node.entriesOf (lifetimeFields c).nodes)) =
      some { settings with rdapTtl := c.rdapTtl, dnsTtl := c.dnsTtl, httpTtl := c.httpTtl } := by
  have hfields : d.fields? ["rdap_ttl_secs", "dns_ttl_secs", "http_ttl_secs"] (.mapping (Node.entriesOf (lifetimeFields c).nodes)) =
      some (lifetimeFields c).nodes :=
    fields?_entriesOf (by simp [lifetimeFields, Fields.nodes, Key.text_ofLetters])
      (by simp [lifetimeFields, Fields.nodes, Key.text_ofLetters])
  simp only [lifetimes, List.forall_mem_cons] at h
  simp only [readLifetimes?, hfields, bind, Option.bind_some]
  simp [fieldOr?, lifetimeFields, Fields.nodes, Key.text_ofLetters, List.lookup_cons, natural?_ofNat h.1, natural?_ofNat h.2.1,
    natural?_ofNat h.2.2.1]

theorem readLookup?_fields (c settings : Config) (d : Document) (hwords : words.map Unbroken.text = c.servers) :
    settings.readLookup? d (.mapping (Node.entriesOf (lookupFields c words).nodes)) =
      some { settings with reverseLookup := c.reverseLookup, servers := c.servers } := by
  have hfields : d.fields? ["reverse_lookup", "servers"] (.mapping (Node.entriesOf (lookupFields c words).nodes)) =
      some (lookupFields c words).nodes :=
    fields?_entriesOf (by simp [lookupFields, Fields.nodes, Key.text_ofLetters])
      (by simp [lookupFields, Fields.nodes, Key.text_ofLetters])
  simp only [readLookup?, hfields, bind, Option.bind_some]
  simp [fieldOr?, lookupFields, Fields.nodes, Key.text_ofLetters, List.lookup_cons, boolean?_flagWord, readServers?_itemsNode, hwords]

theorem ofDocument?_file (h : ∀ ttl ∈ c.lifetimes, ttl.2 < Numeral.limit 64) (hwords : words.map Unbroken.text = c.servers) :
    ofDocument? ⟨.mapping (Node.entriesOf (fileFields c words).nodes), {}⟩ = some (some 1, c) := by
  have hfields (d : Document) : d.fields? ["version", "cache", "dns"] (.mapping (Node.entriesOf (fileFields c words).nodes)) =
      some (fileFields c words).nodes :=
    fields?_entriesOf (by simp [fileFields, Fields.nodes, Key.text_ofLetters]) (by simp [fileFields, Fields.nodes, Key.text_ofLetters])
  have hversion : section? (fileFields c words).nodes "version" (Node.natural? (Numeral.limit 32)) = some (some 1) := by
    have hone : Node.unlessNull? (Node.natural? (Numeral.limit 32)) (.scalar { text := "1" }) = some (some 1) := by decide +kernel
    have htext : (PlainWord.ofLetters ['1'] (by decide) (by decide)).text = "1" := rfl
    simp [section?, fieldOr?, fileFields, Fields.nodes, Key.text_ofLetters, htext, hone]
  have hcache (d : Document) (settings : Config) : section? (fileFields c words).nodes "cache" (settings.readLifetimes? d) =
      some (some { settings with rdapTtl := c.rdapTtl, dnsTtl := c.dnsTtl, httpTtl := c.httpTtl }) := by
    simp [section?, fieldOr?, fileFields, Fields.nodes, Key.text_ofLetters, List.lookup_cons, Node.unlessNull?,
      readLifetimes?_fields c settings d h]
  have hlookup (d : Document) (settings : Config) : section? (fileFields c words).nodes "dns" (settings.readLookup? d) =
      some (some { settings with reverseLookup := c.reverseLookup, servers := c.servers }) := by
    simp [section?, fieldOr?, fileFields, Fields.nodes, Key.text_ofLetters, List.lookup_cons, Node.unlessNull?,
      readLookup?_fields c settings d hwords]
  simp only [ofDocument?, hfields, hversion, hcache, hlookup, bind, Option.bind_some, Option.getD_some]

end Reading

theorem exists_words {servers : List String} (h : ∀ server ∈ servers, Address.isEndpoint server = true) :
    ∃ words : List Unbroken, words.map Unbroken.text = servers := by
  refine ⟨servers.pmap (fun server hserver => ⟨server.toList, fun c hc => ?_⟩) h, ?_⟩
  · have hvisible := (Address.isEndpointChar_of_isEndpoint hserver hc).visible
    exact Yaml.isWordChar_of_visible hvisible.1 hvisible.2
  · simp [List.map_pmap, Unbroken.text]

/-- Settings that can be used are read as they were written. -/
theorem ofYaml_toYaml (c : Config) (hcheck : c.check = .ok ()) : ofYaml (toYaml c) = .ok c := by
  obtain ⟨hlifetimes, hservers⟩ := check_eq_ok_iff.mp hcheck
  obtain ⟨words, hwords⟩ := exists_words hservers
  have hfields : fileFields c words ≠ .nil := nofun
  have hfilled : (fileFields c words).Filled := ⟨nofun, True.intro, nofun, True.intro, True.intro⟩
  have hsmall : ∀ ttl ∈ c.lifetimes, ttl.2 < Numeral.limit 64 := fun ttl httl => (hlifetimes ttl httl).2.trans_lt (by decide)
  rw [ofYaml, toYaml_eq hwords, Fields.read?_flatMap_lines hfields hfilled, Option.bind_some, ofDocument?_file hsmall hwords]
  simp only [supportedVersion, if_true, hcheck]
  rfl

theorem ofYaml_toYaml_scoped :
    ({ servers := ["192.0.2.1:53", "[2001:db8::1]:53", "[fe80::1%2]:5353"] } : Config).check = .ok () ∧
    ofYaml (toYaml { servers := ["192.0.2.1:53", "[2001:db8::1]:53", "[fe80::1%2]:5353"] }) =
      .ok { servers := ["192.0.2.1:53", "[2001:db8::1]:53", "[fe80::1%2]:5353"] } :=
  ⟨by decide +kernel, ofYaml_toYaml _ (by decide +kernel)⟩

end AssetGraph.Config

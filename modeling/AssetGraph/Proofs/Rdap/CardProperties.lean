import AssetGraph.Proofs.Json.Record
import AssetGraph.Proofs.Text.LetterSize
import AssetGraph.Rdap.Card
import Mathlib.Data.List.Basic

/-!
# Properties of contact cards

A card is read from a list of properties, each a list of at least four parts: name, parameters, value type and the values. It has
one property for each, in their order. A property is found by its name in large or small letters, and a telephone number is the fax
number or the other one by the value of its parameter `type`.
-/
namespace AssetGraph.Rdap.Card

open Json Text

variable {c : Card} {j : Json} {parts : List Json} {elements : List (List Json)} {p : Property} {name : String}

/-- The name that a property is written with; one that is no text counts as empty. -/
def nameIn (parts : List Json) : String := (parts[0]?.bind string?).getD ""

def Property.ofParts (parts : List Json) : Property where
  name := asciiLower (nameIn parts)
  parameters := match parts[1]? with
    | some (object members) => members
    | _ => []
  valueType := (parts[2]?.bind string?).getD ""
  values := parts.drop 3

/-- Whether a value is a card that lists properties by their parts. -/
def Lists (j : Json) (elements : List (List Json)) : Prop :=
  j = array [string "vcard", array (elements.map array)] ∧ ∀ parts ∈ elements, 4 ≤ parts.length

/-- Whether the parameter `type` of a property is the word `fax` or a list with it. -/
def SaysFax (parts : List Json) : Prop :=
  ∃ value, parts[1]?.bind (member? "type") = some value ∧
    (value = string "fax" ∨ ∃ items, value = array items ∧ string "fax" ∈ items)

theorem Lists.unique {elements' : List (List Json)} (h : Lists j elements) (h' : Lists j elements') : elements = elements' := by
  have hparts := array.inj (List.cons.inj (List.cons.inj (array.inj (h.1.symm.trans h'.1))).2).1
  exact List.map_injective_iff.mpr (fun _ _ => array.inj) hparts

theorem Property.decode_array {first parameters valueType value : Json} {values : List Json} :
    Property.decode (array (first :: parameters :: valueType :: value :: values)) =
      .ok (ofParts (first :: parameters :: valueType :: value :: values)) := by
  cases parameters <;> rfl

theorem Property.decode_eq_ok_iff : Property.decode j = .ok p ↔ ∃ parts, j = array parts ∧ 4 ≤ parts.length ∧ p = ofParts parts := by
  constructor
  · intro h
    have hread := h
    unfold Property.decode at hread
    split at hread
    · rw [decode_array] at h
      exact ⟨_, rfl, by simp, (Except.ok.inj h).symm⟩
    · cases hread
  · rintro ⟨parts, rfl, hlength, rfl⟩
    match parts, hlength with
    | _ :: _ :: _ :: _ :: _, _ => exact decode_array

theorem forall₂_ofParts_iff {items : List Json} {ps : List Property} :
    List.Forall₂ (fun item p => ∃ parts, item = array parts ∧ 4 ≤ parts.length ∧ p = Property.ofParts parts) items ps ↔
      ∃ elements : List (List Json), items = elements.map array ∧ (∀ parts ∈ elements, 4 ≤ parts.length) ∧
        ps = elements.map Property.ofParts := by
  constructor
  · intro h
    induction h with
    | nil => exact ⟨[], rfl, List.forall_mem_nil _, rfl⟩
    | cons hfirst _ ih =>
      obtain ⟨parts, rfl, hlength, rfl⟩ := hfirst
      obtain ⟨elements, rfl, hlengths, rfl⟩ := ih
      exact ⟨parts :: elements, rfl, List.forall_mem_cons.mpr ⟨hlength, hlengths⟩, rfl⟩
  · rintro ⟨elements, rfl, hlengths, rfl⟩
    rw [List.forall₂_map_left_iff, List.forall₂_map_right_iff, List.forall₂_same]
    exact fun parts hparts => ⟨parts, rfl, hlengths parts hparts, rfl⟩

/-- A card is read where properties are listed, and has these. -/
theorem decode_eq_ok_iff : Card.decode j = .ok c ↔ ∃ elements, Lists j elements ∧ c.properties = elements.map Property.ofParts := by
  have hlisted {items : List Json} : (items.mapM Property.decode).map Card.mk = .ok c ↔
      ∃ elements : List (List Json), items = elements.map array ∧ (∀ parts ∈ elements, 4 ≤ parts.length) ∧
        c.properties = elements.map Property.ofParts := by
    simp only [map_eq_ok_iff, mapM_eq_ok_iff, Property.decode_eq_ok_iff, forall₂_ofParts_iff]
    constructor
    · rintro ⟨_, ⟨elements, hitems, hlengths, rfl⟩, rfl⟩
      exact ⟨elements, hitems, hlengths, rfl⟩
    · rintro ⟨elements, hitems, hlengths, hproperties⟩
      exact ⟨c.properties, ⟨elements, hitems, hlengths, hproperties⟩, rfl⟩
  constructor
  · intro h
    unfold Card.decode at h
    split at h
    · split at h
      · rename_i htag
        obtain ⟨elements, rfl, hlengths, hproperties⟩ := hlisted.mp h
        exact ⟨elements, ⟨by rw [htag], hlengths⟩, hproperties⟩
      · cases h
    · cases h
  · rintro ⟨elements, ⟨rfl, hlengths⟩, hproperties⟩
    exact hlisted.mpr ⟨elements, rfl, hlengths, hproperties⟩

theorem get_eq (h : c.properties = elements.map Property.ofParts) (name : String) :
    c.get name = (elements.filter fun parts => SameLetters (nameIn parts) name).map Property.ofParts := by
  rw [get, h, List.filter_map]
  refine congrArg _ (List.filter_congr fun parts _ => ?_)
  rw [Bool.eq_iff_iff, decide_eq_true_iff, ← asciiLower_eq_asciiLower_iff]
  exact beq_iff_eq

theorem Property.parameter_ofParts (parts : List Json) (key : String) :
    (ofParts parts).parameter key = match parts[1]?.bind (member? key) with
      | some (string s) => [s]
      | some (array items) => items.filterMap string?
      | _ => [] := by
  cases hparameters : parts[1]? with
  | none => simp [parameter, ofParts, hparameters, member?]
  | some parameters =>
    cases parameters with
    | object members => rw [parameter, ofParts, hparameters]; rfl
    | _ => simp [parameter, ofParts, hparameters, member?]

theorem mem_filterMap_string? {items : List Json} {s : String} : s ∈ items.filterMap string? ↔ string s ∈ items := by
  rw [List.mem_filterMap]
  constructor
  · rintro ⟨item, hitem, htext⟩
    cases item with
    | string _ => exact Option.some.inj htext ▸ hitem
    | _ => cases htext
  · exact fun hitem => ⟨string s, hitem, rfl⟩

theorem isFax_ofParts : (Property.ofParts parts).isFax = true ↔ SaysFax parts := by
  rw [Property.isFax, List.contains_iff_mem, Property.parameter_ofParts, SaysFax]
  split
  · rename_i s htype
    simp [htype, eq_comm]
  · rename_i items htype
    rw [mem_filterMap_string?, htype]
    simp
  · rename_i hother hlist
    refine iff_of_false List.not_mem_nil ?_
    rintro ⟨value, hvalue, rfl | ⟨items, rfl, -⟩⟩
    · exact hother _ hvalue
    · exact hlist _ hvalue

instance (parts : List Json) : Decidable (SaysFax parts) := decidable_of_iff _ isFax_ofParts

def numbersIn (elements : List (List Json)) : List (List Json) := elements.filter fun parts => SameLetters (nameIn parts) "tel"

def faxesIn (elements : List (List Json)) : List (List Json) := (numbersIn elements).filter fun parts => SaysFax parts

def phonesIn (elements : List (List Json)) : List (List Json) := (numbersIn elements).filter fun parts => ¬SaysFax parts

def firstTextIn (elements : List (List Json)) : String := ((elements.head?.map Property.ofParts).map Property.text).getD ""

theorem perm_numbersIn (elements : List (List Json)) : (faxesIn elements ++ phonesIn elements).Perm (numbersIn elements) := by
  simpa [faxesIn, phonesIn] using List.filter_append_perm (fun parts => decide (SaysFax parts)) (numbersIn elements)

theorem disjoint_numbersIn (elements : List (List Json)) : (faxesIn elements).Disjoint (phonesIn elements) := by
  intro parts hfax hphone
  exact of_decide_eq_true (List.mem_filter.mp hphone).2 (of_decide_eq_true (List.mem_filter.mp hfax).2)

theorem find?_ofParts (elements : List (List Json)) {picks : Property → Bool} {p : List Json → Bool}
    (h : ∀ parts, picks (Property.ofParts parts) = p parts) :
    (((elements.map Property.ofParts).find? picks).map Property.text).getD "" = firstTextIn (elements.filter p) := by
  rw [List.find?_map, firstTextIn, List.head?_filter, funext (f := picks ∘ Property.ofParts) h]

theorem tel_eq (h : c.properties = elements.map Property.ofParts) : c.tel = firstTextIn (phonesIn elements) := by
  rw [tel, get_eq h, phonesIn, numbersIn]
  refine find?_ofParts _ fun parts => ?_
  rw [Bool.eq_iff_iff, decide_eq_true_iff, ← isFax_ofParts, Bool.not_eq_true', Bool.not_eq_true]

theorem fax_eq (h : c.properties = elements.map Property.ofParts) : c.fax = firstTextIn (faxesIn elements) := by
  rw [fax, get_eq h, faxesIn, numbersIn]
  refine find?_ofParts _ fun parts => ?_
  rw [Bool.eq_iff_iff, decide_eq_true_iff, isFax_ofParts]

/-- A card is read just where properties of at least four parts are listed. It has a property for each, with the parts from the
fourth on as values, and finds those of a name in large and small letters alike. Each listed telephone number counts as a fax number
or as another one: the first of the others is the number of the card, and the first fax number its fax number. -/
theorem properties_found_as_listed (j : Json) :
    ((∃ c, Card.decode j = .ok c) ↔ ∃ elements, Lists j elements) ∧
    ∀ elements c, Lists j elements → Card.decode j = .ok c →
      c.properties = elements.map Property.ofParts ∧ c.properties.map Property.values = elements.map (List.drop 3) ∧
      (∀ name, c.get name = (elements.filter fun parts => SameLetters (nameIn parts) name).map Property.ofParts) ∧
      c.tel = firstTextIn (phonesIn elements) ∧ c.fax = firstTextIn (faxesIn elements) ∧
      (faxesIn elements ++ phonesIn elements).Perm (numbersIn elements) ∧ (faxesIn elements).Disjoint (phonesIn elements) := by
  constructor
  · constructor
    · rintro ⟨c, hdecode⟩
      obtain ⟨elements, hlists, -⟩ := decode_eq_ok_iff.mp hdecode
      exact ⟨elements, hlists⟩
    · rintro ⟨elements, hlists⟩
      exact ⟨⟨elements.map Property.ofParts⟩, decode_eq_ok_iff.mpr ⟨elements, hlists, rfl⟩⟩
  · intro elements c hlists hdecode
    obtain ⟨listed, hread, hproperties⟩ := decode_eq_ok_iff.mp hdecode
    obtain rfl := hread.unique hlists
    have hvalues : c.properties.map Property.values = listed.map (List.drop 3) := by
      rw [hproperties, List.map_map]
      rfl
    exact ⟨hproperties, hvalues, get_eq hproperties, tel_eq hproperties, fax_eq hproperties, perm_numbersIn listed,
      disjoint_numbersIn listed⟩

/-- A card with names in large letters, one that is no text, and a fax number before the telephone number. -/
theorem properties_found_as_listed_fax_first :
    let elements : List (List Json) := [[string "FN", object [], string "text", string "Ada"],
      [string "Tel", object [("type", ofStrings ["work", "fax"])], string "uri", string "tel:1"],
      [null, null, null, null, null], [string "TEL", object [("type", string "voice")], string "text", string "2", string "3"]]
    let j := array [string "vcard", array (elements.map array)]
    ∃ c, Lists j elements ∧ Card.decode j = .ok c ∧ c.properties.map Property.values = elements.map (List.drop 3) ∧
      (c.get "fN").map Property.text = ["Ada"] ∧ c.tel = "2 3" ∧ c.fax = "tel:1" := by
  intro elements j
  have hlists : Lists j elements := ⟨rfl, by decide⟩
  obtain ⟨c, hdecode⟩ := (properties_found_as_listed j).1.mpr ⟨elements, hlists⟩
  obtain ⟨-, hvalues, hget, htel, hfax, -, -⟩ := (properties_found_as_listed j).2 elements c hlists hdecode
  refine ⟨c, hlists, hdecode, hvalues, ?_, ?_, ?_⟩
  · rw [hget]
    decide +kernel
  · rw [htel]
    decide +kernel
  · rw [hfax]
    decide +kernel

end AssetGraph.Rdap.Card

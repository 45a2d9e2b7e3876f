import AssetGraph.Proofs.Config.Check
import AssetGraph.Proofs.Text.LetterSize
import AssetGraph.Proofs.Text.Numeral

/-!
# Settings taken from variables

The variables are taken in their order up to the first with a text that stands for no value of it. What was taken before stays, and so
does all that was taken when a lifetime turns out to be out of range.
-/
namespace AssetGraph.Config

open Text

variable {source : String → Option String} {c c' : Config} {e : Error} {v w : Variable} {vs : List Variable} {text : String}

/-- Whether a text is a number of seconds of at most 64 bits, after at most one plus sign and with blanks around it. -/
def IsSeconds (text : String) (seconds : Nat) : Prop :=
  ∃ digits, (trim text.toList = digits ∨ trim text.toList = '+' :: digits) ∧ Numeral.read? 10 digits = some seconds ∧
    seconds < Numeral.limit 64

def wordsFor : Bool → List String
  | true => ["1", "true", "yes", "on"]
  | false => ["0", "false", "no", "off"]

/-- Whether a text is a word for a truth value, in large or small letters and with blanks around it. -/
def IsFlag (text : String) (flag : Bool) : Prop := ∃ word ∈ wordsFor flag, SameLetters (String.ofList (trim text.toList)) word

theorem readSeconds?_eq_some_iff {seconds : Nat} : readSeconds? text = some seconds ↔ IsSeconds text seconds := by
  have hsign (digits : List Char) : Numeral.read? 10 ('+' :: digits) = none := by
    rw [Numeral.read?, if_neg (by simp), List.mapM_cons]
    rfl
  unfold readSeconds? Numeral.readUnsigned?
  rw [Option.filter_eq_some_iff, decide_eq_true_iff]
  split
  · rename_i rest hplus
    constructor
    · rintro ⟨hread, hlimit⟩
      exact ⟨rest, .inr hplus, hread, hlimit⟩
    · rintro ⟨digits, hdigits | hdigits, hread, hlimit⟩
      · rw [← hdigits, hplus, hsign] at hread
        cases hread
      · obtain rfl := (List.cons.inj (hplus.symm.trans hdigits)).2
        exact ⟨hread, hlimit⟩
  · rename_i hother
    constructor
    · rintro ⟨hread, hlimit⟩
      exact ⟨_, .inl rfl, hread, hlimit⟩
    · rintro ⟨digits, hdigits | hdigits, hread, hlimit⟩
      · exact ⟨hdigits ▸ hread, hlimit⟩
      · exact absurd hdigits (hother digits)

theorem readFlag?_eq_some_iff {flag : Bool} : readFlag? text = some flag ↔ IsFlag text flag := by
  have hsmall : ∀ flag, ∀ word ∈ wordsFor flag, asciiLower word = word := by decide +kernel
  have hdisjoint : ∀ word ∈ wordsFor false, word ∉ wordsFor true := by decide +kernel
  have hflag (flag : Bool) : IsFlag text flag ↔ asciiLower (String.ofList (trim text.toList)) ∈ wordsFor flag := by
    constructor
    · rintro ⟨word, hword, hsame⟩
      rw [asciiLower_eq_asciiLower_iff.mpr hsame, hsmall flag word hword]
      exact hword
    · intro hword
      exact ⟨_, hword, asciiLower_eq_asciiLower_iff.mp (hsmall flag _ hword).symm⟩
  have hread : readFlag? text =
      if asciiLower (String.ofList (trim text.toList)) ∈ wordsFor true then some true
      else if asciiLower (String.ofList (trim text.toList)) ∈ wordsFor false then some false else none := by
    simp only [← List.contains_iff_mem]
    rfl
  rw [hflag, hread]
  split
  · rename_i htrue
    cases flag with
    | true => exact iff_of_true rfl htrue
    | false => exact iff_of_false nofun fun hfalse => hdisjoint _ hfalse htrue
  · rename_i htrue
    cases flag with
    | true => exact iff_of_false (by split <;> nofun) htrue
    | false => simp

namespace Variable

def order : List Variable := [rdapTtl, dnsTtl, httpTtl, reverseLookup]

def Value : Variable → Type
  | reverseLookup => Bool
  | _ => Nat

def Denotes : (v : Variable) → String → v.Value → Prop
  | rdapTtl, text, seconds => IsSeconds text seconds
  | dnsTtl, text, seconds => IsSeconds text seconds
  | httpTtl, text, seconds => IsSeconds text seconds
  | reverseLookup, text, flag => IsFlag text flag

def read? : (v : Variable) → String → Option v.Value
  | rdapTtl, text => readSeconds? text
  | dnsTtl, text => readSeconds? text
  | httpTtl, text => readSeconds? text
  | reverseLookup, text => readFlag? text

theorem read?_eq_some_iff {x : v.Value} : v.read? text = some x ↔ v.Denotes text x := by
  cases v with
  | reverseLookup => exact @readFlag?_eq_some_iff text x
  | _ => exact @readSeconds?_eq_some_iff text x

theorem read?_eq_none_iff : v.read? text = none ↔ ∀ x, ¬v.Denotes text x := by
  simp only [Option.eq_none_iff_forall_ne_some, ne_eq, read?_eq_some_iff]

end Variable

def value (c : Config) : (v : Variable) → v.Value
  | .rdapTtl => c.rdapTtl
  | .dnsTtl => c.dnsTtl
  | .httpTtl => c.httpTtl
  | .reverseLookup => c.reverseLookup

def set (c : Config) : (v : Variable) → v.Value → Config
  | .rdapTtl, n => { c with rdapTtl := n }
  | .dnsTtl, n => { c with dnsTtl := n }
  | .httpTtl, n => { c with httpTtl := n }
  | .reverseLookup, b => { c with reverseLookup := b }

@[simp] theorem value_set_self (c : Config) (v : Variable) (x : v.Value) : (c.set v x).value v = x := by cases v <;> rfl

theorem value_set_of_ne (c : Config) (x : v.Value) (h : w ≠ v) : (c.set v x).value w = c.value w := by
  cases v <;> cases w <;> first | rfl | exact absurd rfl h

@[simp] theorem servers_set (c : Config) (v : Variable) (x : v.Value) : (c.set v x).servers = c.servers := by cases v <;> rfl

theorem ext_value (hvalue : ∀ v, c.value v = c'.value v) (hservers : c.servers = c'.servers) : c = c' := by
  obtain ⟨rdap, dns, http, reverse, servers⟩ := c
  obtain rfl : rdap = c'.rdapTtl := hvalue .rdapTtl
  obtain rfl : dns = c'.dnsTtl := hvalue .dnsTtl
  obtain rfl : http = c'.httpTtl := hvalue .httpTtl
  obtain rfl : reverse = c'.reverseLookup := hvalue .reverseLookup
  obtain rfl : servers = c'.servers := hservers
  rfl

theorem assign_of_read? {x : v.Value} (h : v.read? text = some x) : c.assign v text = .ok (c.set v x) := by
  cases v with
  | reverseLookup =>
    have hread : readFlag? text = some x := h
    unfold assign
    simp only [hread]
    rfl
  | _ =>
    have hread : readSeconds? text = some x := h
    unfold assign
    simp only [hread]
    rfl

theorem assign_of_read?_eq_none (h : v.read? text = none) : c.assign v text = .error (.badVariable v text) := by
  cases v with
  | reverseLookup =>
    have hread : readFlag? text = none := h
    unfold assign
    simp only [hread]
    rfl
  | _ =>
    have hread : readSeconds? text = none := h
    unfold assign
    simp only [hread]
    rfl

/-- Whether settings are others with some variables taken: those of the variables that are defined have the values that the texts
stand for. -/
structure Takes (source : String → Option String) (vs : List Variable) (c c' : Config) : Prop where
  taken : ∀ v ∈ vs, ∀ text, source v.name = some text → v.Denotes text (c'.value v)
  kept : ∀ v, v ∉ vs ∨ source v.name = none → c'.value v = c.value v
  servers : c'.servers = c.servers

theorem takes_nil_iff : Takes source [] c c' ↔ c' = c := by
  constructor
  · exact fun h => ext_value (fun v => h.kept v (.inl List.not_mem_nil)) h.servers
  · rintro rfl
    exact ⟨fun _ hv => absurd hv List.not_mem_nil, fun _ _ => rfl, rfl⟩

theorem takes_cons_iff_of_none (htext : source v.name = none) : Takes source (v :: vs) c c' ↔ Takes source vs c c' := by
  constructor
  · intro h
    refine ⟨fun w hw => h.taken w (List.mem_cons_of_mem v hw), fun w hw => h.kept w ?_, h.servers⟩
    by_cases hwv : w = v
    · exact .inr (hwv ▸ htext)
    · exact hw.imp_left fun hnotMem hmem => hnotMem ((List.mem_cons.mp hmem).resolve_left hwv)
  · intro h
    refine ⟨fun w hw other hother => ?_, fun w hw => h.kept w (hw.imp_left fun hnotMem hmem => hnotMem (List.mem_cons_of_mem v hmem)),
      h.servers⟩
    rcases List.mem_cons.mp hw with rfl | hmem
    · rw [htext] at hother
      cases hother
    · exact h.taken w hmem other hother

theorem takes_cons_iff_of_some (hv : v ∉ vs) (htext : source v.name = some text) :
    Takes source (v :: vs) c c' ↔ ∃ x, v.Denotes text x ∧ Takes source vs (c.set v x) c' := by
  constructor
  · intro h
    refine ⟨c'.value v, h.taken v List.mem_cons_self text htext, fun w hw => h.taken w (List.mem_cons_of_mem v hw),
      fun w hw => ?_, h.servers.trans (servers_set c v _).symm⟩
    by_cases hwv : w = v
    · subst hwv
      exact (value_set_self c w _).symm
    · rw [value_set_of_ne c _ hwv]
      exact h.kept w (hw.imp_left fun hnotMem hmem => hnotMem ((List.mem_cons.mp hmem).resolve_left hwv))
  · rintro ⟨x, hx, h⟩
    refine ⟨fun w hw other hother => ?_, fun w hw => ?_, h.servers.trans (servers_set c v x)⟩
    · rcases List.mem_cons.mp hw with rfl | hmem
      · obtain rfl := Option.some.inj (htext.symm.trans hother)
        rw [h.kept w (.inl hv), value_set_self]
        exact hx
      · exact h.taken w hmem other hother
    · have hwv : w ≠ v := by
        rintro rfl
        rcases hw with hnotMem | hnone
        · exact hnotMem List.mem_cons_self
        · rw [htext] at hnone
          cases hnone
      rw [h.kept w (hw.imp_left fun hnotMem hmem => hnotMem (List.mem_cons_of_mem v hmem)), value_set_of_ne c x hwv]

/-- Whether a variable with a text that stands for no value of it is reached with the variables before it taken. -/
def StopsAt (source : String → Option String) (vs : List Variable) (c c' : Config) (v : Variable) (text : String) : Prop :=
  ∃ before later, vs = before ++ v :: later ∧ Takes source before c c' ∧ source v.name = some text ∧ ∀ x, ¬v.Denotes text x

theorem stopsAt_cons_iff_of_none (htext : source w.name = none) :
    StopsAt source (w :: vs) c c' v text ↔ StopsAt source vs c c' v text := by
  constructor
  · rintro ⟨before, later, hsplit, htakes, hv, hbad⟩
    cases before with
    | nil =>
      obtain rfl := (List.cons.inj hsplit).1
      rw [htext] at hv
      cases hv
    | cons first before =>
      obtain ⟨rfl, hrest⟩ := List.cons.inj hsplit
      exact ⟨before, later, hrest, (takes_cons_iff_of_none htext).mp htakes, hv, hbad⟩
  · rintro ⟨before, later, rfl, htakes, hv, hbad⟩
    exact ⟨w :: before, later, rfl, (takes_cons_iff_of_none htext).mpr htakes, hv, hbad⟩

theorem stopsAt_cons_iff_of_bad {other : String} (hother : source w.name = some other) (hw : ∀ x, ¬w.Denotes other x) :
    StopsAt source (w :: vs) c c' v text ↔ v = w ∧ text = other ∧ c' = c := by
  constructor
  · rintro ⟨before, later, hsplit, htakes, hv, -⟩
    cases before with
    | nil =>
      obtain rfl := (List.cons.inj hsplit).1
      exact ⟨rfl, Option.some.inj (hv.symm.trans hother), takes_nil_iff.mp htakes⟩
    | cons first before =>
      obtain rfl := (List.cons.inj hsplit).1
      exact absurd (htakes.taken w List.mem_cons_self other hother) (hw _)
  · rintro ⟨rfl, rfl, rfl⟩
    exact ⟨[], vs, rfl, takes_nil_iff.mpr rfl, hother, hw⟩

theorem stopsAt_cons_iff_of_some (hvs : (w :: vs).Nodup) {other : String} {x : w.Value} (hother : source w.name = some other)
    (hx : w.read? other = some x) : StopsAt source (w :: vs) c c' v text ↔ StopsAt source vs (c.set w x) c' v text := by
  obtain ⟨hw, -⟩ := List.nodup_cons.mp hvs
  have hdenotes := Variable.read?_eq_some_iff.mp hx
  constructor
  · rintro ⟨before, later, hsplit, htakes, hv, hbad⟩
    cases before with
    | nil =>
      obtain rfl := (List.cons.inj hsplit).1
      obtain rfl := Option.some.inj (hv.symm.trans hother)
      exact absurd hdenotes (hbad x)
    | cons first before =>
      obtain ⟨rfl, rfl⟩ := List.cons.inj hsplit
      have hbefore : w ∉ before := fun hmem => hw (List.mem_append_left _ hmem)
      obtain ⟨y, hy, htakes⟩ := (takes_cons_iff_of_some hbefore hother).mp htakes
      obtain rfl := Option.some.inj (hx.symm.trans (Variable.read?_eq_some_iff.mpr hy))
      exact ⟨before, later, rfl, htakes, hv, hbad⟩
  · rintro ⟨before, later, rfl, htakes, hv, hbad⟩
    have hbefore : w ∉ before := fun hmem => hw (List.mem_append_left _ hmem)
    exact ⟨w :: before, later, rfl, (takes_cons_iff_of_some hbefore hother).mpr ⟨x, hdenotes, htakes⟩, hv, hbad⟩

theorem assignAll_cons_of_none (htext : source v.name = none) : assignAll source (v :: vs) c = assignAll source vs c := by
  rw [assignAll, htext]

theorem assignAll_cons_of_some {x : v.Value} (htext : source v.name = some text) (hx : v.read? text = some x) :
    assignAll source (v :: vs) c = assignAll source vs (c.set v x) := by
  simp only [assignAll, htext, assign_of_read? hx]

theorem assignAll_cons_of_bad (htext : source v.name = some text) (hbad : v.read? text = none) :
    assignAll source (v :: vs) c = (some (.badVariable v text), c) := by
  simp only [assignAll, htext, assign_of_read?_eq_none hbad]

theorem assignAll_eq_none_iff (hvs : vs.Nodup) : assignAll source vs c = (none, c') ↔ Takes source vs c c' := by
  induction vs generalizing c with
  | nil =>
    rw [assignAll, takes_nil_iff, Prod.mk.injEq, and_iff_right rfl]
    exact eq_comm
  | cons v vs ih =>
    obtain ⟨hv, hrest⟩ := List.nodup_cons.mp hvs
    cases htext : source v.name with
    | none => rw [assignAll_cons_of_none htext, takes_cons_iff_of_none htext, ih hrest]
    | some text =>
      rw [takes_cons_iff_of_some hv htext]
      simp only [← Variable.read?_eq_some_iff]
      cases hx : v.read? text with
      | none =>
        rw [assignAll_cons_of_bad htext hx]
        exact iff_of_false nofun nofun
      | some x =>
        rw [assignAll_cons_of_some htext hx, ih hrest]
        simp

/-- The first variable with a text that stands for no value of it is reported. -/
theorem assignAll_eq_some_iff (hvs : vs.Nodup) :
    assignAll source vs c = (some e, c') ↔ ∃ v text, StopsAt source vs c c' v text ∧ e = .badVariable v text := by
  induction vs generalizing c with
  | nil =>
    refine iff_of_false nofun ?_
    rintro ⟨_, _, ⟨before, _, hsplit, -⟩, -⟩
    exact List.append_ne_nil_of_right_ne_nil before (List.cons_ne_nil _ _) hsplit.symm
  | cons v vs ih =>
    have hrest := (List.nodup_cons.mp hvs).2
    cases htext : source v.name with
    | none => simp only [assignAll_cons_of_none htext, stopsAt_cons_iff_of_none htext, ih hrest]
    | some text =>
      cases hx : v.read? text with
      | none =>
        simp only [assignAll_cons_of_bad htext hx, stopsAt_cons_iff_of_bad htext (Variable.read?_eq_none_iff.mp hx)]
        constructor
        · intro heq
          cases heq
          exact ⟨v, text, ⟨rfl, rfl, rfl⟩, rfl⟩
        · rintro ⟨_, _, ⟨rfl, rfl, rfl⟩, rfl⟩
          rfl
      | some x => simp only [assignAll_cons_of_some htext hx, stopsAt_cons_iff_of_some hvs htext hx, ih hrest]

/-- How taking settings from variables ends: with all that are defined taken, at the first with a text that stands for no value, or at the
first lifetime that is out of range once all are taken. -/
inductive Ends (source : String → Option String) (c : Config) : Option Error → Config → Prop
  | done {c' : Config} (htakes : Takes source Variable.order c c') (hcheck : c'.check = .ok ()) : Ends source c none c'
  | stopped {c' : Config} {v : Variable} {text : String} (hstops : StopsAt source Variable.order c c' v text) :
    Ends source c (some (.badVariable v text)) c'
  | outOfRange {c' : Config} {setting : String} {value : Nat} (htakes : Takes source Variable.order c c')
    (hfirst : IsFirstOutOfRange c'.lifetimes setting value) : Ends source c (some (.outOfRange setting value)) c'

theorem order_nodup : Variable.order.Nodup := by decide

theorem override_eq_of_some (h : assignAll source Variable.order c = (some e, c')) : override source c = (some e, c') := by
  have hassign : assignAll source [.rdapTtl, .dnsTtl, .httpTtl, .reverseLookup] c = (some e, c') := h
  rw [override, hassign]

theorem override_eq_of_none (h : assignAll source Variable.order c = (none, c')) :
    override source c = (match c'.check with | .ok () => none | .error e => some e, c') := by
  have hassign : assignAll source [.rdapTtl, .dnsTtl, .httpTtl, .reverseLookup] c = (none, c') := h
  simp only [override, hassign]
  cases c'.check <;> rfl

/-- Taking settings from variables has just the ends that are listed, where every server could be used before. -/
theorem override_eq_iff (hservers : ∀ server ∈ c.servers, Address.isEndpoint server = true) {ended : Option Error} :
    override source c = (ended, c') ↔ Ends source c ended c' := by
  constructor
  · intro hends
    obtain ⟨assigned, d, hassign⟩ : ∃ assigned d, assignAll source Variable.order c = (assigned, d) := ⟨_, _, rfl⟩
    cases assigned with
    | some e =>
      rw [override_eq_of_some hassign] at hends
      obtain ⟨rfl, rfl⟩ := Prod.mk.inj hends
      obtain ⟨v, text, hstops, rfl⟩ := (assignAll_eq_some_iff order_nodup).mp hassign
      exact .stopped hstops
    | none =>
      rw [override_eq_of_none hassign] at hends
      obtain ⟨rfl, rfl⟩ := Prod.mk.inj hends
      have htakes := (assignAll_eq_none_iff order_nodup).mp hassign
      cases hcheck : d.check with
      | ok _ => exact .done htakes hcheck
      | error e =>
        obtain ⟨setting, value, hfirst, rfl⟩ := (check_eq_error_iff (htakes.servers ▸ hservers)).mp hcheck
        exact .outOfRange htakes hfirst
  · rintro (⟨htakes, hcheck⟩ | ⟨hstops⟩ | ⟨htakes, hfirst⟩)
    · rw [override_eq_of_none ((assignAll_eq_none_iff order_nodup).mpr htakes), hcheck]
    · exact override_eq_of_some ((assignAll_eq_some_iff order_nodup).mpr ⟨_, _, hstops, rfl⟩)
    · have hcheck := (check_eq_error_iff (htakes.servers ▸ hservers)).mpr ⟨_, _, hfirst, rfl⟩
      rw [override_eq_of_none ((assignAll_eq_none_iff order_nodup).mpr htakes), hcheck]

theorem Ends.servers {ended : Option Error} (h : Ends source c ended c') : c'.servers = c.servers := by
  rcases h with ⟨htakes, -⟩ | ⟨_, _, -, htakes, -⟩ | ⟨htakes, -⟩ <;> exact htakes.servers

theorem Ends.eq_of_stopped (h : Ends source c (some (.badVariable v text)) c')
    (hbefore : ∀ w ∈ Variable.order.takeWhile (· ≠ v), source w.name = none) : c' = c := by
  cases h with
  | stopped hstops =>
    obtain ⟨before, later, hsplit, htakes, -, -⟩ := hstops
    have hbeforeEq : Variable.order.takeWhile (· ≠ v) = before := by
      have hnodup : (before ++ v :: later).Nodup := hsplit ▸ order_nodup
      have hne : ∀ w ∈ before, (decide (w ≠ v)) = true := fun w hw =>
        decide_eq_true ((List.nodup_append.mp hnodup).2.2 w hw v List.mem_cons_self)
      rw [hsplit, List.takeWhile_append_of_pos hne]
      simp
    refine ext_value (fun w => htakes.kept w ?_) htakes.servers
    by_cases hw : w ∈ before
    · exact .inr (hbefore w (hbeforeEq ▸ hw))
    · exact .inl hw

/-- Variables are taken one after the other, and those taken before an error stay taken. So settings that could be used can still be
used afterwards just if all lifetimes are in range, and are the same after a bad variable with none defined before it. -/
theorem override_taken_in_order (source : String → Option String) (c c' : Config) (ended : Option Error) (hc : c.check = .ok ()) :
    (override source c = (ended, c') ↔ Ends source c ended c') ∧
    (override source c = (ended, c') → (c'.check = .ok () ↔ ∀ ttl ∈ c'.lifetimes, InRange ttl.2)) ∧
    ∀ v text, override source c = (some (.badVariable v text), c') →
      (∀ w ∈ Variable.order.takeWhile (· ≠ v), source w.name = none) → c' = c := by
  have hservers := (check_eq_ok_iff.mp hc).2
  refine ⟨override_eq_iff hservers, fun h => ?_, fun v text h => ((override_eq_iff hservers).mp h).eq_of_stopped⟩
  have hsame := ((override_eq_iff hservers).mp h).servers
  rw [check_eq_ok_iff, hsame, and_iff_left hservers]

theorem override_taken_in_order_maybe :
    ({} : Config).check = .ok () ∧
    Ends (List.lookup · [("NETGRAPH_REVERSE_DNS", "maybe"), ("NETGRAPH_RDAP_CACHE_TTL", " +60 ")]) {}
      (some (.badVariable .reverseLookup "maybe")) { rdapTtl := 60 } ∧
    ({ rdapTtl := 60 } : Config).check = .ok () := by
  have hcheck : ({} : Config).check = .ok () := by decide +kernel
  have hrun : override (List.lookup · [("NETGRAPH_REVERSE_DNS", "maybe"), ("NETGRAPH_RDAP_CACHE_TTL", " +60 ")]) {} =
      (some (.badVariable .reverseLookup "maybe"), { rdapTtl := 60 }) := by decide +kernel
  obtain ⟨hends, hvalid, -⟩ := override_taken_in_order
    (List.lookup · [("NETGRAPH_REVERSE_DNS", "maybe"), ("NETGRAPH_RDAP_CACHE_TTL", " +60 ")]) {} { rdapTtl := 60 }
    (some (.badVariable .reverseLookup "maybe")) hcheck
  exact ⟨hcheck, hends.mp hrun, (hvalid hrun).mpr (by decide)⟩

/-- After a bad variable the settings need not be those of before, and after a lifetime out of range they can no longer be used. -/
theorem override_keeps_taken :
    ({} : Config).check = .ok () ∧
    override (List.lookup · [("NETGRAPH_RDAP_CACHE_TTL", "600"), ("NETGRAPH_DNS_CACHE_TTL", "5m")]) {} =
      (some (.badVariable .dnsTtl "5m"), { rdapTtl := 600 }) ∧
    ({ rdapTtl := 600 } : Config) ≠ {} ∧
    override (List.lookup · [("NETGRAPH_RDAP_CACHE_TTL", "100000")]) {} =
      (some (.outOfRange "cache.rdap_ttl_secs" 100000), { rdapTtl := 100000 }) ∧
    ({ rdapTtl := 100000 } : Config).check ≠ .ok () := by
  decide +kernel

end AssetGraph.Config

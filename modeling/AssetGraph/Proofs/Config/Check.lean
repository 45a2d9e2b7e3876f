import AssetGraph.Config
import Mathlib.Tactic.Common

/-!
# Settings that can be used

Settings pass the check when every lifetime is in range and every server is an address with a port. Otherwise the first lifetime that
is out of range is reported, or with none the first server that is no such address.
-/
namespace AssetGraph.Config

variable {c : Config} {e : Error} {setting : String} {value : Nat}

def InRange (seconds : Nat) : Prop := leastTtl ≤ seconds ∧ seconds ≤ greatestTtl

/-- The lifetimes by the names of their settings, in the order in which they are checked. -/
def lifetimes (c : Config) : List (String × Nat) :=
  [("cache.rdap_ttl_secs", c.rdapTtl), ("cache.dns_ttl_secs", c.dnsTtl), ("cache.http_ttl_secs", c.httpTtl)]

def IsFirstOutOfRange (ttls : List (String × Nat)) (setting : String) (value : Nat) : Prop :=
  ∃ before after, ttls = before ++ (setting, value) :: after ∧ (∀ ttl ∈ before, InRange ttl.2) ∧ ¬InRange value

instance (seconds : Nat) : Decidable (InRange seconds) := inferInstanceAs (Decidable (_ ∧ _))

theorem isFirstOutOfRange_cons {ttl : String × Nat} {ttls : List (String × Nat)} :
    IsFirstOutOfRange (ttl :: ttls) setting value ↔
      ttl = (setting, value) ∧ ¬InRange value ∨ InRange ttl.2 ∧ IsFirstOutOfRange ttls setting value := by
  constructor
  · rintro ⟨before, after, hsplit, hbefore, hvalue⟩
    cases before with
    | nil => exact .inl ⟨(List.cons.inj hsplit).1, hvalue⟩
    | cons first before =>
      obtain ⟨rfl, hrest⟩ := List.cons.inj hsplit
      obtain ⟨hfirst, hothers⟩ := List.forall_mem_cons.mp hbefore
      exact .inr ⟨hfirst, before, after, hrest, hothers, hvalue⟩
  · rintro (⟨rfl, hvalue⟩ | ⟨hfirst, before, after, rfl, hbefore, hvalue⟩)
    · exact ⟨[], ttls, rfl, List.forall_mem_nil _, hvalue⟩
    · exact ⟨ttl :: before, after, rfl, List.forall_mem_cons.mpr ⟨hfirst, hbefore⟩, hvalue⟩

def checkTtls : List (String × Nat) → Except Error Unit
  | [] => .ok ()
  | ttl :: ttls => checkTtl ttl.1 ttl.2 >>= fun () => checkTtls ttls

theorem check_eq (c : Config) : c.check = checkTtls c.lifetimes >>= fun () => checkServers c.servers := by
  simp only [check, lifetimes, checkTtls, bind_assoc]
  rfl

theorem checkTtls_cons_of_inRange {ttl : String × Nat} (h : InRange ttl.2) (ttls : List (String × Nat)) :
    checkTtls (ttl :: ttls) = checkTtls ttls := by
  have hcheck : checkTtl ttl.1 ttl.2 = .ok () := if_pos h
  rw [checkTtls, hcheck]
  rfl

theorem checkTtls_cons_of_not_inRange {ttl : String × Nat} (h : ¬InRange ttl.2) (ttls : List (String × Nat)) :
    checkTtls (ttl :: ttls) = .error (.outOfRange ttl.1 ttl.2) := by
  have hcheck : checkTtl ttl.1 ttl.2 = .error (.outOfRange ttl.1 ttl.2) := if_neg h
  rw [checkTtls, hcheck]
  rfl

theorem checkTtls_eq_ok_iff {ttls : List (String × Nat)} : checkTtls ttls = .ok () ↔ ∀ ttl ∈ ttls, InRange ttl.2 := by
  induction ttls with
  | nil => exact iff_of_true rfl (List.forall_mem_nil _)
  | cons ttl ttls ih =>
    rw [List.forall_mem_cons]
    by_cases h : InRange ttl.2
    · rw [checkTtls_cons_of_inRange h, ih, and_iff_right h]
    · rw [checkTtls_cons_of_not_inRange h]
      exact iff_of_false nofun fun hall => h hall.1

theorem checkTtls_eq_error_iff {ttls : List (String × Nat)} :
    checkTtls ttls = .error e ↔ ∃ setting value, IsFirstOutOfRange ttls setting value ∧ e = .outOfRange setting value := by
  induction ttls with
  | nil =>
    refine iff_of_false nofun ?_
    rintro ⟨_, _, ⟨before, after, hsplit, -, -⟩, -⟩
    exact List.append_ne_nil_of_right_ne_nil before (List.cons_ne_nil _ _) hsplit.symm
  | cons ttl ttls ih =>
    simp only [isFirstOutOfRange_cons]
    by_cases h : InRange ttl.2
    · rw [checkTtls_cons_of_inRange h, ih]
      constructor
      · rintro ⟨setting, value, hfirst, rfl⟩
        exact ⟨setting, value, .inr ⟨h, hfirst⟩, rfl⟩
      · rintro ⟨setting, value, ⟨rfl, hvalue⟩ | ⟨-, hfirst⟩, rfl⟩
        · exact absurd h hvalue
        · exact ⟨setting, value, hfirst, rfl⟩
    · rw [checkTtls_cons_of_not_inRange h]
      constructor
      · intro heq
        cases heq
        exact ⟨ttl.1, ttl.2, .inl ⟨rfl, h⟩, rfl⟩
      · rintro ⟨setting, value, ⟨rfl, -⟩ | ⟨hrange, -⟩, rfl⟩
        · rfl
        · exact absurd hrange h

theorem checkServers_eq_ok_iff {servers : List String} :
    checkServers servers = .ok () ↔ ∀ server ∈ servers, Address.isEndpoint server = true := by
  induction servers with
  | nil => exact iff_of_true rfl (List.forall_mem_nil _)
  | cons server servers ih =>
    rw [checkServers, List.forall_mem_cons]
    split
    · rename_i h
      rw [ih, and_iff_right h]
    · rename_i h
      exact iff_of_false nofun fun hall => h hall.1

theorem check_eq_ok_iff :
    c.check = .ok () ↔ (∀ ttl ∈ c.lifetimes, InRange ttl.2) ∧ ∀ server ∈ c.servers, Address.isEndpoint server = true := by
  rw [check_eq, ← checkTtls_eq_ok_iff, ← checkServers_eq_ok_iff]
  cases checkTtls c.lifetimes with
  | error e => exact iff_of_false nofun fun h => nomatch h.1
  | ok _ => exact (and_iff_right rfl).symm

/-- Where every server can be used, only a lifetime can be reported. -/
theorem check_eq_error_iff (hservers : ∀ server ∈ c.servers, Address.isEndpoint server = true) :
    c.check = .error e ↔
      ∃ setting value, IsFirstOutOfRange c.lifetimes setting value ∧ e = .outOfRange setting value := by
  rw [check_eq, ← checkTtls_eq_error_iff]
  cases checkTtls c.lifetimes with
  | error _ => rfl
  | ok _ =>
    refine iff_of_false (fun h => ?_) nofun
    have hok : checkServers c.servers = .error e := h
    rw [checkServers_eq_ok_iff.mpr hservers] at hok
    cases hok

end AssetGraph.Config

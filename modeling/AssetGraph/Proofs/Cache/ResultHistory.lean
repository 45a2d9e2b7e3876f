import AssetGraph.Proofs.Cache.Contents
import AssetGraph.Proofs.Cache.History
import Mathlib.Data.Set.Card

/-!
# What a result cache remembers of its history

Whatever was done with a result cache, the unexpired entry of a key is its last write, unless the key was taken away
since. Lookups, purges and outcomes that are not kept do not show, however many entries they drop.
-/
namespace AssetGraph.Cache.Results

/-- What can be done with a result cache, and the passing of time. Storing keeps every outcome, settling only those that
may be kept. -/
inductive Use where
  | store (key : Identity) (outcome : Outcome) (ttl : Nat)
  | settle (key : Identity) (outcome : Outcome) (ttl : Nat)
  | lookup (key : Identity) (bypass : Bool)
  | invalidate (key : Identity)
  | purge
  | clear
  | advance (milliseconds : Nat)

structure Timed where
  now : Nat
  results : Results := {}

variable {start deadline ttl : Nat} {uses later : List Use} {use : Use} {key : Identity} {outcome other : Outcome}
  {s s' : Timed} {e : Entry} {c : Results}

namespace Use

def apply : Use → Timed → Timed
  | store key outcome ttl, s => { s with results := s.results.store s.now key outcome ttl }
  | settle key outcome ttl, s => { s with results := s.results.settle s.now key outcome ttl }
  | lookup key bypass, s => { s with results := (s.results.lookup s.now key bypass).2 }
  | invalidate key, s => { s with results := s.results.invalidate key }
  | purge, s => { s with results := (s.results.purge s.now).2 }
  | clear, s => { s with results := s.results.clear }
  | advance milliseconds, s => { s with now := s.now + milliseconds }

def write? : Use → Option (Identity × Outcome × Nat)
  | store key outcome ttl => some (key, outcome, ttl)
  | settle key outcome ttl => if outcome.isCacheable then some (key, outcome, ttl) else none
  | _ => none

/-- Whether a use takes away what was kept under a key before. -/
def Overrides (use : Use) (key : Identity) : Prop :=
  (∃ outcome ttl, use.write? = some (key, outcome, ttl)) ∨ use = .invalidate key ∨ use = .clear

/-- Whether a use is a lookup, a purge, or settles an outcome that may not be kept. -/
def IsSilent : Use → Prop
  | lookup _ _ => True
  | purge => True
  | settle _ outcome _ => outcome.isCacheable = false
  | _ => False

theorem apply_of_write? (h : use.write? = some (key, outcome, ttl)) (s : Timed) :
    use.apply s = { s with results := s.results.store s.now key outcome ttl } := by
  cases use with
  | store k o t =>
    cases h
    rfl
  | settle k o t =>
    simp only [write?, Option.ite_none_right_eq_some] at h
    obtain ⟨ho, hsame⟩ := h
    cases hsame
    simp only [apply, Results.settle, if_pos ho]
  | lookup => cases h
  | invalidate => cases h
  | purge => cases h
  | clear => cases h
  | advance => cases h

theorem apply_settle_of_not_cacheable (h : outcome.isCacheable = false) (key : Identity) (ttl : Nat) (s : Timed) :
    (settle key outcome ttl).apply s = s := by
  simp [apply, Results.settle, h]

theorem overrides_iff_of_write? (h : use.write? = some (key, outcome, ttl)) {k : Identity} :
    use.Overrides k ↔ k = key := by
  constructor
  · rintro (⟨outcome', ttl', hsame⟩ | rfl | rfl)
    · rw [h] at hsame
      cases hsame
      rfl
    · cases h
    · cases h
  · rintro rfl
    exact .inl ⟨outcome, ttl, h⟩

theorem write?_eq_none_of_spares (h : ∀ key, ¬use.Overrides key) : use.write? = none := by
  cases hwrite : use.write? with
  | none => rfl
  | some write => exact absurd (.inl ⟨_, _, hwrite⟩) (h write.1)

theorem IsSilent.write?_eq_none (h : use.IsSilent) : use.write? = none := by
  cases use with
  | store => cases h
  | settle k o t => exact if_neg (Bool.not_eq_true _ ▸ h)
  | lookup => rfl
  | invalidate => cases h
  | purge => rfl
  | clear => cases h
  | advance => cases h

theorem IsSilent.not_overrides (h : use.IsSilent) (key : Identity) : ¬use.Overrides key := by
  rintro (⟨outcome, ttl, hwrite⟩ | rfl | rfl)
  · rw [h.write?_eq_none] at hwrite
    cases hwrite
  · exact h
  · exact h

def elapsed : Use → Nat
  | advance milliseconds => milliseconds
  | _ => 0

theorem now_apply (use : Use) (s : Timed) : (use.apply s).now = s.now + use.elapsed := by
  cases use <;> rfl

theorem IsSilent.elapsed_eq_zero (h : use.IsSilent) : use.elapsed = 0 := by
  cases use with
  | advance => cases h
  | _ => rfl

end Use

theorem HasDistinctKeys.apply (h : s.results.HasDistinctKeys) (use : Use) : (use.apply s).results.HasDistinctKeys := by
  cases use with
  | store key outcome ttl => exact h.store s.now key outcome ttl
  | settle key outcome ttl => exact h.settle s.now key outcome ttl
  | lookup key bypass => exact h.lookup s.now key bypass
  | invalidate key => exact h.invalidate key
  | purge => exact h.purge s.now
  | clear => exact .empty
  | advance milliseconds => exact h

def used (start : Nat) (uses : List Use) : Timed := uses.foldl (fun s use => use.apply s) ⟨start, {}⟩

theorem used_concat (start : Nat) (uses : List Use) (use : Use) :
    used start (uses ++ [use]) = use.apply (used start uses) := by
  simp [used]

theorem now_used (start : Nat) (uses : List Use) : (used start uses).now = start + (uses.map Use.elapsed).sum := by
  induction uses using List.reverseRecOn with
  | nil => rfl
  | append_singleton uses use ih =>
    rw [used_concat, Use.now_apply, ih, List.map_append, List.sum_append, List.map_singleton, List.sum_singleton,
      Nat.add_assoc]

/-- The last write of a key since it was taken away, and the moment at which it expires. -/
def LastWrite (start : Nat) (uses : List Use) (key : Identity) (outcome : Outcome) (deadline : Nat) : Prop :=
  ∃ before use after, uses = before ++ use :: after ∧
    (∃ ttl, use.write? = some (key, outcome, ttl) ∧ deadline = (used start before).now + ttl) ∧
    ∀ u ∈ after, ¬u.Overrides key

namespace LastWrite

theorem nil : ¬LastWrite start [] key outcome deadline := by
  rintro ⟨before, use, after, huses, -⟩
  cases before <;> cases huses

/-- A last write is the last use of a history, or the last write before a use that does not take it away. -/
theorem concat_iff : LastWrite start (uses ++ [use]) key outcome deadline ↔
    (∃ ttl, use.write? = some (key, outcome, ttl) ∧ deadline = (used start uses).now + ttl) ∨
      LastWrite start uses key outcome deadline ∧ ¬use.Overrides key := exists_last_concat_iff

theorem concat_iff_of_silent (h : use.IsSilent) :
    LastWrite start (uses ++ [use]) key outcome deadline ↔ LastWrite start uses key outcome deadline := by
  simp [concat_iff, h.write?_eq_none, h.not_overrides]

theorem insert_silent_iff (h : use.IsSilent) :
    LastWrite start (uses ++ use :: later) key outcome deadline ↔ LastWrite start (uses ++ later) key outcome deadline := by
  induction later using List.reverseRecOn with
  | nil => rw [concat_iff_of_silent h, List.append_nil]
  | append_singleton later last ih =>
    have hnow : (used start (uses ++ use :: later)).now = (used start (uses ++ later)).now := by
      simp [now_used, h.elapsed_eq_zero]
    rw [← List.cons_append, ← List.append_assoc, ← List.append_assoc, concat_iff, concat_iff, ih, hnow]

end LastWrite

/-- Whether the entries are last writes, and the last writes that have not expired are among the entries. -/
structure RefinesHistory (start : Nat) (uses : List Use) (s : Timed) : Prop where
  distinct : s.results.HasDistinctKeys
  sound : ∀ key e, s.results.find? key = some e → LastWrite start uses key e.outcome e.expiresAt
  complete : ∀ key outcome deadline, LastWrite start uses key outcome deadline → s.now < deadline →
    s.results.find? key = some ⟨outcome, deadline⟩

namespace RefinesHistory

theorem empty (start : Nat) : RefinesHistory start [] ⟨start, {}⟩ where
  distinct := .empty
  sound key e h := by cases h
  complete key outcome deadline h := absurd h LastWrite.nil

theorem write (h : RefinesHistory start uses s) (hnow : s.now = (used start uses).now)
    (hwrite : use.write? = some (key, outcome, ttl)) : RefinesHistory start (uses ++ [use]) (use.apply s) := by
  rw [Use.apply_of_write? hwrite]
  constructor
  case distinct => exact h.distinct.store _ _ _ _
  case sound =>
    intro k e he
    rw [find?_store] at he
    split at he
    · rename_i hk
      cases he
      exact LastWrite.concat_iff.mpr (.inl ⟨ttl, hk ▸ hwrite, by rw [hnow]⟩)
    · rename_i hk
      exact LastWrite.concat_iff.mpr (.inr ⟨h.sound k e he, mt (Use.overrides_iff_of_write? hwrite).mp hk⟩)
  case complete =>
    intro k o deadline hlast hlive
    rw [find?_store]
    rcases LastWrite.concat_iff.mp hlast with ⟨ttl', hsame, rfl⟩ | ⟨hold, hkept⟩
    · rw [hwrite] at hsame
      cases hsame
      rw [if_pos rfl, hnow]
    · rw [if_neg (mt (Use.overrides_iff_of_write? hwrite).mpr hkept), h.complete k o deadline hold hlive]

theorem of_no_write (h : RefinesHistory start uses s) (hwrite : use.write? = none)
    (hback : ∀ key e, (use.apply s).results.find? key = some e → s.results.find? key = some e ∧ ¬use.Overrides key)
    (hkept : ∀ key e, s.results.find? key = some e → s.now < e.expiresAt → ¬use.Overrides key →
      (use.apply s).results.find? key = some e) :
    RefinesHistory start (uses ++ [use]) (use.apply s) where
  distinct := h.distinct.apply use
  sound key e he := by
    obtain ⟨hold, hspared⟩ := hback key e he
    exact LastWrite.concat_iff.mpr (.inr ⟨h.sound key e hold, hspared⟩)
  complete key outcome deadline hlast hlive := by
    rcases LastWrite.concat_iff.mp hlast with ⟨ttl, hsome, -⟩ | ⟨hold, hspared⟩
    · rw [hwrite] at hsome
      cases hsome
    · have hlive' : s.now < deadline := by
        rw [Use.now_apply] at hlive
        omega
      exact hkept key _ (h.complete key outcome deadline hold hlive') hlive' hspared

/-- A use that takes no key away drops entries that have expired, if anything. -/
theorem of_sparing (h : RefinesHistory start uses s) (hspares : ∀ key, ¬use.Overrides key)
    (hback : ∀ key e, (use.apply s).results.find? key = some e → s.results.find? key = some e)
    (hkept : ∀ key e, s.results.find? key = some e → s.now < e.expiresAt →
      (use.apply s).results.find? key = some e) :
    RefinesHistory start (uses ++ [use]) (use.apply s) :=
  h.of_no_write (Use.write?_eq_none_of_spares hspares) (fun key e he => ⟨hback key e he, hspares key⟩)
    fun key e he hlive _ => hkept key e he hlive

theorem apply (h : RefinesHistory start uses (used start uses)) (use : Use) :
    RefinesHistory start (uses ++ [use]) (use.apply (used start uses)) := by
  cases hwrite : use.write? with
  | some write => exact h.write rfl hwrite
  | none =>
    cases use with
    | store k o t => cases hwrite
    | settle k o t =>
      have ho : o.isCacheable = false := by simpa [Use.write?] using hwrite
      refine h.of_sparing (Use.IsSilent.not_overrides ho) ?_ ?_
      · rw [Use.apply_settle_of_not_cacheable ho]
        exact fun _ _ => id
      · rw [Use.apply_settle_of_not_cacheable ho]
        exact fun _ _ he _ => he
    | lookup k bypass =>
      have hsilent : (Use.lookup k bypass).IsSilent := trivial
      exact h.of_sparing hsilent.not_overrides (fun _ _ => find?_of_find?_lookup) fun _ _ => find?_lookup_of_live
    | purge =>
      have hfind := h.distinct.find?_purge (used start uses).now
      refine h.of_sparing (Use.IsSilent.not_overrides trivial) (fun key e he => ?_) fun key e he hlive => ?_
      · exact (Option.filter_eq_some_iff.mp ((hfind key).symm.trans he)).1
      · refine (hfind key).trans (Option.filter_eq_some_iff.mpr ⟨he, ?_⟩)
        simpa [Entry.isExpired] using hlive
    | invalidate k =>
      refine h.of_no_write rfl (fun key e he => ?_) fun key e he _ hspared => ?_
      · have hfind := (find?_without (used start uses).results k key).symm.trans he
        split at hfind
        · cases hfind
        · rename_i hk
          exact ⟨hfind, by simpa [Use.Overrides, Use.write?] using Ne.symm hk⟩
      · refine (find?_without _ k key).trans ((if_neg ?_).trans he)
        rintro rfl
        exact hspared (.inr (.inl rfl))
    | clear =>
      refine h.of_no_write rfl (fun key e he => ?_) fun _ _ _ _ hspared => absurd (.inr (.inr rfl)) hspared
      cases he
    | advance milliseconds =>
      exact h.of_sparing (by simp [Use.Overrides, Use.write?]) (fun _ _ => id) fun _ _ he _ => he

end RefinesHistory

/-- The entries refine every history, by induction on its last use. -/
theorem refinesHistory (start : Nat) (uses : List Use) : RefinesHistory start uses (used start uses) := by
  induction uses using List.reverseRecOn with
  | nil => exact .empty start
  | append_singleton uses use ih =>
    rw [used_concat]
    exact ih.apply use

def recalled (start : Nat) (uses : List Use) (key : Identity) (bypass : Bool) : Option Outcome :=
  ((used start uses).results.lookup (used start uses).now key bypass).1

theorem recalled_eq_some_iff : recalled start uses key false = some outcome ↔
    ∃ deadline, LastWrite start uses key outcome deadline ∧ (used start uses).now < deadline := by
  have h := refinesHistory start uses
  rw [recalled, lookup_eq_some_iff]
  constructor
  · rintro ⟨-, e, he, hlive, rfl⟩
    exact ⟨e.expiresAt, h.sound key e he, hlive⟩
  · rintro ⟨deadline, hlast, hlive⟩
    exact ⟨rfl, _, h.complete key outcome deadline hlast hlive, hlive, rfl⟩

theorem recalled_bypassing (start : Nat) (uses : List Use) (key : Identity) :
    recalled start uses key true = none := rfl

/-- A silent use changes nothing that is looked up later. -/
theorem recalled_insert_silent (h : use.IsSilent) (start : Nat) (uses later : List Use) (key : Identity)
    (bypass : Bool) :
    recalled start (uses ++ use :: later) key bypass = recalled start (uses ++ later) key bypass := by
  cases bypass with
  | true => rfl
  | false =>
    have hnow : (used start (uses ++ use :: later)).now = (used start (uses ++ later)).now := by
      simp [now_used, h.elapsed_eq_zero]
    apply Option.ext
    intro outcome
    rw [recalled_eq_some_iff, recalled_eq_some_iff, hnow]
    simp only [LastWrite.insert_silent_iff h]

theorem ncard_keys (h : c.HasDistinctKeys) (p : Entry → Bool) :
    {key | ∃ e, c.find? key = some e ∧ p e = true}.ncard = c.entries.countP fun entry => p entry.2 := by
  have hkeys : {key | ∃ e, c.find? key = some e ∧ p e = true} =
      (((c.entries.filter fun entry => p entry.2).map Prod.fst).toFinset : Set Identity) := by
    ext key
    simp [← h.mem_entries_iff]
  have hdistinct : ((c.entries.filter fun entry => p entry.2).map Prod.fst).Nodup :=
    h.sublist (List.filter_sublist.map _)
  rw [hkeys, Set.ncard_coe_finset, List.toFinset_card_of_nodup hdistinct, List.length_map, List.countP_eq_length_filter]

/-- After any history a key holds its last write until that expires, a bypassing lookup gives nothing, lookups, purges and
outcomes that may not be kept change nothing that is looked up later, and a purge counts the keys whose entries have
expired. -/
theorem lookups_refine_history (start : Nat) (uses : List Use) :
    (∀ key outcome, recalled start uses key false = some outcome ↔
        ∃ deadline, LastWrite start uses key outcome deadline ∧ (used start uses).now < deadline) ∧
      (∀ key, recalled start uses key true = none) ∧
      (∀ use : Use, use.IsSilent → ∀ later key bypass,
        recalled start (uses ++ use :: later) key bypass = recalled start (uses ++ later) key bypass) ∧
      ((used start uses).results.purge (used start uses).now).1 =
        {key | ∃ e, (used start uses).results.find? key = some e ∧ e.expiresAt ≤ (used start uses).now}.ncard := by
  refine ⟨fun key outcome => recalled_eq_some_iff, recalled_bypassing start uses,
    fun use h => recalled_insert_silent h start uses, ?_⟩
  have hcount := ncard_keys (refinesHistory start uses).distinct fun e => e.isExpired (used start uses).now
  simp only [Entry.isExpired, decide_eq_true_eq] at hcount
  exact hcount.symm

/-- A refused settlement between a store and its last moment does not show. -/
theorem lookups_refine_history_refused :
    let key : Identity := ⟨"rdap", .search, globalScope, "rdap-domain", "example.com"⟩
    let refused : Use := .settle key (.error ⟨.malformedInput, "bad", none, none, none⟩) 1000
    refused.IsSilent ∧
      recalled 0 ([.store key (.ok []) 100] ++ refused :: [.advance 99]) key false =
        recalled 0 ([.store key (.ok []) 100] ++ [.advance 99]) key false ∧
      recalled 0 ([.store key (.ok []) 100] ++ [.advance 99]) key false = some (.ok []) := by
  intro key refused
  obtain ⟨-, -, hsilent, -⟩ := lookups_refine_history 0 [.store key (.ok []) 100]
  exact ⟨rfl, hsilent refused rfl [.advance 99] key false, rfl⟩

end AssetGraph.Cache.Results

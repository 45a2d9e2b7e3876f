import AssetGraph.Proofs.Cache.Results

/-!
# What the result cache counts

A lookup counts one thing that happened, and an expired entry that it drops; what was kept under other keys does not
matter for it. Keeping an outcome counts nothing. The gauge is the number of entries as long as nothing else sets it.
-/
namespace AssetGraph.Cache

namespace ResultCounters

/-- The counts of what happened, without the gauge. -/
def totals (c : ResultCounters) : ResultCounters := { c with entries := 0 }

instance : Add ResultCounters where
  add c d :=
    { hits := c.hits + d.hits
      negativeHits := c.negativeHits + d.negativeHits
      misses := c.misses + d.misses
      bypassed := c.bypassed + d.bypassed
      expired := c.expired + d.expired
      entries := c.entries + d.entries }

theorem add_assoc (b c d : ResultCounters) : b + c + d = b + (c + d) := by
  simp only [HAdd.hAdd, Add.add, mk.injEq]
  exact ⟨Nat.add_assoc .., Nat.add_assoc .., Nat.add_assoc .., Nat.add_assoc .., Nat.add_assoc .., Nat.add_assoc ..⟩

theorem add_right_comm (b c d : ResultCounters) : b + c + d = b + d + c := by
  simp only [HAdd.hAdd, Add.add, mk.injEq]
  exact ⟨Nat.add_right_comm .., Nat.add_right_comm .., Nat.add_right_comm .., Nat.add_right_comm ..,
    Nat.add_right_comm .., Nat.add_right_comm ..⟩

theorem eq_of_totals_eq {c d : ResultCounters} (h : c.totals = d.totals) (hentries : c.entries = d.entries) : c = d := by
  obtain ⟨hits, negativeHits, misses, bypassed, expired, entries⟩ := c
  obtain ⟨hits', negativeHits', misses', bypassed', expired', entries'⟩ := d
  simp only [totals, mk.injEq, and_true] at h
  obtain ⟨rfl, rfl, rfl, rfl, rfl⟩ := h
  exact congrArg _ hentries

end ResultCounters

namespace Results

variable {c c' : Results} {now ttl : Nat} {key : Identity} {outcome : Outcome} {bypass : Bool}

def tally (found : Option Entry) (now : Nat) (bypass : Bool) : ResultCounters :=
  if bypass then { bypassed := 1 }
  else
    match found with
    | none => { misses := 1 }
    | some e =>
      if e.isExpired now then { misses := 1, expired := 1 }
      else
        match e.outcome with
        | .ok _ => { hits := 1 }
        | .error _ => { negativeHits := 1 }

theorem totals_lookup (c : Results) (now : Nat) (key : Identity) (bypass : Bool) :
    (c.lookup now key bypass).2.counters.totals = c.counters.totals + tally (c.find? key) now bypass := by
  have h := c.lookedUp now key bypass
  generalize c.lookup now key bypass = looked at h ⊢
  cases h with
  | bypassed => rfl
  | absent hk =>
    rw [hk]
    rfl
  | @expired e hk he =>
    have hexpired : e.isExpired now = true := decide_eq_true he
    simp only [hk, tally, hexpired]
    rfl
  | @live e hk he =>
    have hlive : e.isExpired now = false := decide_eq_false (Nat.not_le.mpr he)
    cases ho : e.outcome <;> simp only [hk, tally, hlive, ho] <;> rfl

theorem totals_settle (c : Results) (now : Nat) (key : Identity) (outcome : Outcome) (ttl : Nat) :
    (c.settle now key outcome ttl).counters.totals = c.counters.totals := by
  rw [settle]
  split <;> rfl

def IsGauged (c : Results) : Prop := c.counters.entries = c.entries.length

theorem IsGauged.lookup (h : c.IsGauged) (now : Nat) (key : Identity) (bypass : Bool) :
    (c.lookup now key bypass).2.IsGauged := by
  have hlookup := c.lookedUp now key bypass
  generalize c.lookup now key bypass = looked at hlookup ⊢
  cases hlookup with
  | bypassed => exact h
  | absent _ => exact h
  | expired _ _ => rfl
  | @live e _ _ => cases e.outcome <;> exact h

theorem IsGauged.settle (h : c.IsGauged) (now : Nat) (key : Identity) (outcome : Outcome) (ttl : Nat) :
    (c.settle now key outcome ttl).IsGauged := by
  rw [Results.settle]
  split
  · rfl
  · exact h

theorem Invariant.gauged : Invariant IsGauged where
  lookup now key bypass h := h.lookup now key bypass
  settle now key outcome ttl h := h.settle now key outcome ttl

theorem IsGauged.counters_eq (h : c.IsGauged) (h' : c'.IsGauged) (hperm : c.entries.Perm c'.entries)
    (htotals : c.counters.totals = c'.counters.totals) : c.counters = c'.counters :=
  ResultCounters.eq_of_totals_eq htotals (h.trans (hperm.length_eq.trans h'.symm))

end Results
end AssetGraph.Cache

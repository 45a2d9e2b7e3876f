import AssetGraph.Proofs.Cache.Results
import Mathlib.Data.List.Nodup

/-!
# What the result cache contains

However it is used, the result cache has at most one entry for a key, and every entry holds an outcome that may be kept.
The entries of such a cache are what its keys hold.
-/
namespace AssetGraph.Cache.Results

variable {c : Results} {now ttl : Nat} {key : Identity} {outcome : Outcome} {bypass : Bool} {e : Entry}

def HasDistinctKeys (c : Results) : Prop := (c.entries.map Prod.fst).Nodup

/-- One entry for a key, and only outcomes that may be kept. -/
structure Sound (c : Results) : Prop where
  distinct : (c.entries.map Prod.fst).Nodup
  cacheable : ∀ entry ∈ c.entries, entry.2.outcome.isCacheable = true

theorem mem_entries_of_find? (h : c.find? key = some e) : (key, e) ∈ c.entries := by
  obtain ⟨entry, hentry, rfl⟩ := Option.map_eq_some_iff.mp h
  have hkey : entry.1 = key := by simpa using List.find?_some hentry
  rw [← hkey]
  exact List.mem_of_find?_eq_some hentry

theorem entries_lookup_sublist (c : Results) (now : Nat) (key : Identity) (bypass : Bool) :
    (c.lookup now key bypass).2.entries.Sublist c.entries := by
  have h := c.lookedUp now key bypass
  generalize c.lookup now key bypass = looked at h ⊢
  cases h with
  | bypassed => exact .refl _
  | absent _ => exact .refl _
  | expired _ _ => exact List.filter_sublist
  | @live e _ _ => cases e.outcome <;> exact .refl _

theorem entries_purge (c : Results) (now : Nat) :
    (c.purge now).2.entries = c.entries.filter fun entry => !entry.2.isExpired now := by
  simp only [purge]
  split
  · rename_i hnone
    symm
    rw [List.filter_eq_self]
    intro entry hentry
    simpa using List.countP_eq_zero.mp hnone entry hentry
  · rfl

namespace HasDistinctKeys

theorem empty : HasDistinctKeys {} := .nil

theorem of_sublist {c' : Results} (h : c.HasDistinctKeys) (hsub : c'.entries.Sublist c.entries) :
    c'.HasDistinctKeys :=
  h.sublist (hsub.map _)

theorem store (h : c.HasDistinctKeys) (now : Nat) (key : Identity) (outcome : Outcome) (ttl : Nat) :
    (c.store now key outcome ttl).HasDistinctKeys := by
  have hnew : key ∉ (c.without key).map Prod.fst := by simp [Results.without]
  exact List.nodup_cons.mpr ⟨hnew, h.sublist (List.filter_sublist.map _)⟩

theorem settle (h : c.HasDistinctKeys) (now : Nat) (key : Identity) (outcome : Outcome) (ttl : Nat) :
    (c.settle now key outcome ttl).HasDistinctKeys := by
  rw [Results.settle]
  split
  · exact h.store now key outcome ttl
  · exact h

theorem lookup (h : c.HasDistinctKeys) (now : Nat) (key : Identity) (bypass : Bool) :
    (c.lookup now key bypass).2.HasDistinctKeys :=
  h.of_sublist (c.entries_lookup_sublist now key bypass)

theorem invalidate (h : c.HasDistinctKeys) (key : Identity) : (c.invalidate key).HasDistinctKeys :=
  h.of_sublist List.filter_sublist

theorem purge (h : c.HasDistinctKeys) (now : Nat) : (c.purge now).2.HasDistinctKeys :=
  h.of_sublist (entries_purge c now ▸ List.filter_sublist)

theorem find?_of_mem_entries (h : c.HasDistinctKeys) (he : (key, e) ∈ c.entries) : c.find? key = some e := by
  obtain ⟨before, after, hentries⟩ := List.append_of_mem he
  rw [HasDistinctKeys, hentries, List.map_append, List.nodup_append] at h
  obtain ⟨-, -, hbefore⟩ := h
  have hnone : before.find? (fun entry => entry.1 = key) = none := by
    rw [List.find?_eq_none]
    intro entry hentry
    simpa using hbefore entry.1 (List.mem_map_of_mem hentry) key (by simp)
  simp [find?, hentries, List.find?_append, hnone]

theorem mem_entries_iff (h : c.HasDistinctKeys) : (key, e) ∈ c.entries ↔ c.find? key = some e :=
  ⟨h.find?_of_mem_entries, mem_entries_of_find?⟩

theorem find?_purge (h : c.HasDistinctKeys) (now : Nat) (key : Identity) :
    (c.purge now).2.find? key = (c.find? key).filter fun e => !e.isExpired now := by
  apply Option.ext
  intro e
  rw [← (h.purge now).mem_entries_iff, entries_purge, List.mem_filter, h.mem_entries_iff, Option.filter_eq_some_iff]

end HasDistinctKeys

namespace Sound

theorem empty : Sound {} := ⟨HasDistinctKeys.empty, nofun⟩

theorem lookup (h : c.Sound) (now : Nat) (key : Identity) (bypass : Bool) : (c.lookup now key bypass).2.Sound where
  distinct := HasDistinctKeys.lookup h.distinct now key bypass
  cacheable entry hentry := h.cacheable entry ((c.entries_lookup_sublist now key bypass).subset hentry)

theorem settle (h : c.Sound) (now : Nat) (key : Identity) (outcome : Outcome) (ttl : Nat) :
    (c.settle now key outcome ttl).Sound where
  distinct := HasDistinctKeys.settle h.distinct now key outcome ttl
  cacheable entry hentry := by
    rw [Results.settle] at hentry
    split at hentry
    · rename_i ho
      rcases List.mem_cons.mp hentry with rfl | hold
      · exact ho
      · exact h.cacheable entry (List.mem_of_mem_filter hold)
    · exact h.cacheable entry hentry

theorem mem_entries_iff (h : c.Sound) : (key, e) ∈ c.entries ↔ c.find? key = some e :=
  HasDistinctKeys.mem_entries_iff h.distinct

theorem isCacheable_of_find? (h : c.Sound) (he : c.find? key = some e) : e.outcome.isCacheable = true :=
  h.cacheable _ (mem_entries_of_find? he)

/-- Sound caches whose keys hold the same have the same entries, in some order. -/
theorem entries_perm {c' : Results} (h : c.Sound) (h' : c'.Sound) (hsame : ∀ key, c.find? key = c'.find? key) :
    c.entries.Perm c'.entries := by
  have hnodup := List.Nodup.of_map _ h.distinct
  have hnodup' := List.Nodup.of_map _ h'.distinct
  refine (List.perm_ext_iff_of_nodup hnodup hnodup').mpr fun ⟨key, e⟩ => ?_
  rw [h.mem_entries_iff, h'.mem_entries_iff, hsame]

end Sound

theorem Invariant.sound : Invariant Sound where
  lookup now key bypass h := h.lookup now key bypass
  settle now key outcome ttl h := h.settle now key outcome ttl

end AssetGraph.Cache.Results

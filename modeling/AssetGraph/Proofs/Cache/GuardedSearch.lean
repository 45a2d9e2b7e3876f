import AssetGraph.Cache.Ranges
import AssetGraph.Proofs.Network.Guarded

/-!
# Searches among ranges stay in range

A search compares its target with the networks of the unexpired ranges of its family. With every step of that arithmetic refused that
leaves its range, it still gives what the search gives, whatever is stored; and so does all else that networks are used for.
-/
namespace AssetGraph.Guarded

variable {α V : Type} {p : α → Guarded Bool} {q : α → Bool}

open Cache

/-- Searches a family where the test of a network may be refused. -/
def search (c : Ranges V) (now : Nat) (isV4 : Bool) (holds : Network → Guarded Bool) : Guarded (Option V × Ranges V) := do
  let live ← (c.family isV4).filterM fun r => if r.isExpired now then .ok false else holds r.network
  let found := (Range.best? live).map Range.value
  return (found, (c.dropExpired now isV4).countSearch found.isSome)

def searchAddress (c : Ranges V) (now : Nat) (a : Address) : Guarded (Option V × Ranges V) :=
  search c now a.unmap.isV4 fun n => contains n.raw a.unmap

def searchNetwork (c : Ranges V) (now : Nat) (n : Network) : Guarded (Option V × Ranges V) :=
  search c now n.isV4 fun m => containsNetwork m.raw n.raw

theorem filterAuxM_eq (h : ∀ value, p value = .ok (q value)) (values kept : List α) :
    values.filterAuxM p kept = .ok ((values.filter q).reverse ++ kept) := by
  induction values generalizing kept with
  | nil => rfl
  | cons value values ih =>
    rw [List.filterAuxM, h, ok_bind, ih]
    cases hq : q value <;> simp [hq]

theorem filterM_eq (h : ∀ value, p value = .ok (q value)) (values : List α) : values.filterM p = .ok (values.filter q) := by
  rw [List.filterM, filterAuxM_eq h, ok_bind, List.append_nil, List.reverse_reverse]
  rfl

theorem search_eq {guarded : Network → Guarded Bool} {holds : Network → Bool} (h : ∀ n, guarded n = .ok (holds n)) (c : Ranges V)
    (now : Nat) (isV4 : Bool) : search c now isV4 guarded = .ok (c.search now isV4 holds) := by
  have htest (r : Range V) :
      (if r.isExpired now then .ok false else guarded r.network) = Except.ok (!r.isExpired now && holds r.network) := by
    cases r.isExpired now with
    | true => rfl
    | false => exact h r.network
  rw [search, filterM_eq htest, ok_bind]
  rfl

/-- All that is computed for networks stays in the range of its words. No step is refused when a network is made, read or found for a
range, when its last address is taken, when it is compared with an address or with another network, or when ranges are searched; and
what is computed is the same. A mask is refused just when its length exceeds the width of the address. As families are compared before
masks, a comparison would be refused just when a length did not fit its own base, which is so of no network. -/
theorem arithmetic_in_range :
    (∀ a length, mask a length = if length ≤ a.width then .ok (a.mask length) else .error (.difference a.width length)) ∧
    (∀ (n : RawNetwork) a, contains n a =
      if n.base.isV4 = a.unmap.isV4 then
        if n.length ≤ n.base.width then .ok (a.unmap.mask n.length == n.base) else .error (.difference n.base.width n.length)
      else .ok false) ∧
    (∀ a length, make a length = .ok ((Network.make a length).map Network.raw)) ∧
    (∀ s, parse s = .ok ((Network.parse s).map Network.raw)) ∧
    (∀ first last, covering first last = .ok ((Network.covering first last).map Network.raw)) ∧
    (∀ n : Network, last n.raw = .ok n.last) ∧
    (∀ (n : Network) a, contains n.raw a = .ok (n.contains a)) ∧
    (∀ n other : Network, containsNetwork n.raw other.raw = .ok (n.containsNetwork other)) ∧
    ∀ (V : Type) (c : Ranges V) now,
      (∀ a, searchAddress c now a = .ok (c.searchAddress now a)) ∧ ∀ n, searchNetwork c now n = .ok (c.searchNetwork now n) := by
  refine ⟨mask_eq, contains_eq_ite, make_eq, parse_eq, covering_eq, last_eq, contains_eq, containsNetwork_eq, fun V c now =>
    ⟨fun a => ?_, fun n => ?_⟩⟩
  · exact search_eq (fun m => contains_eq m a.unmap) c now a.unmap.isV4
  · exact search_eq (fun m => containsNetwork_eq m n) c now n.isV4

end AssetGraph.Guarded

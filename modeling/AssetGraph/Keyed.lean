/-!
# Named entries in key order

`Keyed α` holds values under distinct names, listed in increasing order of the names. The order of texts is by
code point, which is also the order of their UTF-8 bytes. `get?_insert` says what one insertion changes.
-/
namespace AssetGraph

/-- Values under distinct names, in increasing order of the names. -/
structure Keyed (α : Type) where
  entries : List (String × α)
  sorted : entries.Pairwise (fun a b => a.1 < b.1)

namespace Keyed

variable {α : Type}

/-- Sets the value of `key` in a list of entries in key order. -/
def insertEntry (key : String) (value : α) : List (String × α) → List (String × α)
  | [] => [(key, value)]
  | (k, v) :: rest =>
    if key < k then (key, value) :: (k, v) :: rest
    else if key = k then (key, value) :: rest
    else (k, v) :: insertEntry key value rest

def lookupEntry (key : String) : List (String × α) → Option α
  | [] => none
  | (k, v) :: rest => if k = key then some v else lookupEntry key rest

theorem lt_of_not_lt_of_ne {a b : String} (h : ¬a < b) (hne : a ≠ b) : b < a := by
  rcases String.le_total a b with hab | hba
  · exact absurd (String.le_antisymm hab (String.not_lt.1 h)) hne
  · exact String.not_le.1 fun hab => hne (String.le_antisymm hab hba)

theorem mem_insertEntry {key : String} {value : α} {es : List (String × α)} {e : String × α}
    (h : e ∈ insertEntry key value es) : e = (key, value) ∨ e ∈ es := by
  induction es with
  | nil => simpa [insertEntry] using h
  | cons head rest ih =>
    obtain ⟨k, v⟩ := head
    simp only [insertEntry] at h
    split at h
    · simpa using h
    · split at h
      · rcases List.mem_cons.1 h with h | h
        · exact .inl h
        · exact .inr (List.mem_cons_of_mem _ h)
      · rcases List.mem_cons.1 h with h | h
        · exact .inr (h ▸ List.mem_cons_self)
        · exact (ih h).imp_right (List.mem_cons_of_mem _)

theorem sorted_insertEntry (key : String) (value : α) {es : List (String × α)}
    (hs : es.Pairwise (fun a b => a.1 < b.1)) :
    (insertEntry key value es).Pairwise (fun a b => a.1 < b.1) := by
  induction es with
  | nil => simp [insertEntry]
  | cons head rest ih =>
    obtain ⟨k, v⟩ := head
    obtain ⟨hk, hrest⟩ := List.pairwise_cons.1 hs
    simp only [insertEntry]
    split
    · rename_i hlt
      refine List.pairwise_cons.2 ⟨fun e he => ?_, hs⟩
      rcases List.mem_cons.1 he with rfl | he
      · exact hlt
      · exact String.lt_trans hlt (hk e he)
    · split
      · rename_i heq
        subst heq
        exact List.pairwise_cons.2 ⟨hk, hrest⟩
      · rename_i hlt hne
        refine List.pairwise_cons.2 ⟨fun e he => ?_, ih hrest⟩
        rcases mem_insertEntry he with rfl | he
        · exact lt_of_not_lt_of_ne hlt hne
        · exact hk e he

theorem lookupEntry_insertEntry (key k : String) (value : α) (es : List (String × α)) :
    lookupEntry k (insertEntry key value es) = if key = k then some value else lookupEntry k es := by
  induction es with
  | nil => simp [insertEntry, lookupEntry]
  | cons head rest ih =>
    obtain ⟨k', v'⟩ := head
    simp only [insertEntry]
    split
    · simp [lookupEntry]
    · split
      · rename_i heq
        subst heq
        by_cases hk : key = k <;> simp [lookupEntry, hk]
      · rename_i hne
        by_cases hk' : k' = k
        · subst hk'
          simp [lookupEntry, hne]
        · simp [lookupEntry, hk', ih]

def empty : Keyed α := ⟨[], .nil⟩

def insert (m : Keyed α) (key : String) (value : α) : Keyed α :=
  ⟨insertEntry key value m.entries, sorted_insertEntry key value m.sorted⟩

def get? (m : Keyed α) (key : String) : Option α :=
  lookupEntry key m.entries

/-- Sets the value of `key` to what `f` makes of the value so far. -/
def alter (m : Keyed α) (key : String) (f : Option α → α) : Keyed α :=
  m.insert key (f (m.get? key))

/-- A later entry replaces an earlier one of the same name. -/
def ofList (es : List (String × α)) : Keyed α :=
  es.foldl (fun m e => m.insert e.1 e.2) empty

def keys (m : Keyed α) : List String := m.entries.map Prod.fst

def size (m : Keyed α) : Nat := m.entries.length

@[simp] theorem get?_insert (m : Keyed α) (key k : String) (value : α) :
    (m.insert key value).get? k = if key = k then some value else m.get? k :=
  lookupEntry_insertEntry key k value m.entries

@[simp] theorem get?_empty (k : String) : (empty : Keyed α).get? k = none := rfl

end Keyed
end AssetGraph

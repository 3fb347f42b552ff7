/-!
# Tables

A finite table with one entry for each key, in the order in which the keys were first entered.
What a table holds is what `get?` answers; each operation has one lemma that says what it does to
those answers.
-/
namespace FormulaEngine

/-- A table lists its entries in order of entry; no key is listed twice. -/
structure Table (κ α : Type) where
  entries : List (κ × α)
  nodup_keys : (entries.map Prod.fst).Nodup

namespace Table

variable {κ α : Type}

def empty : Table κ α := ⟨[], .nil⟩

instance : Inhabited (Table κ α) := ⟨empty⟩

def keys (t : Table κ α) : List κ :=
  t.entries.map Prod.fst

/-- The values, in the order of their keys. -/
def values (t : Table κ α) : List α :=
  t.entries.map Prod.snd

def size (t : Table κ α) : Nat :=
  t.entries.length

theorem length_keys (t : Table κ α) : t.keys.length = t.size := by
  simp [keys, size]

variable [DecidableEq κ]

def find? (k : κ) : List (κ × α) → Option α
  | [] => none
  | (k', a) :: r => if k' = k then some a else find? k r

/-- Replaces the value listed under a key, or lists the key last. -/
def put (k : κ) (a : α) : List (κ × α) → List (κ × α)
  | [] => [(k, a)]
  | (k', b) :: r => if k' = k then (k, a) :: r else (k', b) :: put k a r

def get? (t : Table κ α) (k : κ) : Option α :=
  find? k t.entries

def contains (t : Table κ α) (k : κ) : Bool :=
  (t.get? k).isSome

theorem mem_keys_put {k x : κ} {a : α} {l : List (κ × α)} :
    x ∈ (put k a l).map Prod.fst ↔ x = k ∨ x ∈ l.map Prod.fst := by
  induction l with
  | nil => simp [put]
  | cons e r ih =>
    unfold put
    split
    next h => simp [h]
    next h => simp only [List.map_cons, List.mem_cons, ih]; grind

theorem nodup_keys_put {k : κ} {a : α} {l : List (κ × α)} (h : (l.map Prod.fst).Nodup) :
    ((put k a l).map Prod.fst).Nodup := by
  induction l with
  | nil => simp [put]
  | cons e r ih =>
    rw [List.map_cons, List.nodup_cons] at h
    unfold put
    split
    next hk => simpa [← hk] using h
    next hk =>
      rw [List.map_cons, List.nodup_cons, mem_keys_put]
      exact ⟨by grind, ih h.2⟩

/-- Enters a value under a key, in place of an earlier one. -/
def insert (t : Table κ α) (k : κ) (a : α) : Table κ α :=
  ⟨put k a t.entries, nodup_keys_put t.nodup_keys⟩

def erase (t : Table κ α) (k : κ) : Table κ α where
  entries := t.entries.filter (·.1 ≠ k)
  nodup_keys := t.nodup_keys.sublist (List.filter_sublist.map _)

/-- The table of a list of entries; of two entries of one key the later one counts. -/
def ofList (l : List (κ × α)) : Table κ α :=
  l.foldl (fun t e => t.insert e.1 e.2) empty

@[simp] theorem get?_empty (k : κ) : (empty : Table κ α).get? k = none := rfl

theorem get?_insert (t : Table κ α) (k x : κ) (a : α) :
    (t.insert k a).get? x = if k = x then some a else t.get? x := by
  show find? x (put k a t.entries) = if k = x then some a else find? x t.entries
  induction t.entries with
  | nil => rfl
  | cons e r ih =>
    unfold put
    split
    next h => subst h; simp only [find?]; split <;> rfl
    next h => simp only [find?, ih]; grind

@[simp] theorem get?_insert_self (t : Table κ α) (k : κ) (a : α) :
    (t.insert k a).get? k = some a := by
  simp [get?_insert]

theorem get?_erase (t : Table κ α) (k x : κ) :
    (t.erase k).get? x = if k = x then none else t.get? x := by
  show find? x (t.entries.filter (·.1 ≠ k)) = if k = x then none else find? x t.entries
  induction t.entries with
  | nil => simp [find?]
  | cons e r ih =>
    by_cases h : e.1 = k <;> simp only [List.filter_cons, h, find?] <;> grind [find?]

theorem find?_eq_none_iff {k : κ} {l : List (κ × α)} :
    find? k l = none ↔ k ∉ l.map Prod.fst := by
  induction l with
  | nil => simp [find?]
  | cons e r ih => simp only [find?, List.map_cons, List.mem_cons]; grind

theorem find?_append (k : κ) (l m : List (κ × α)) :
    find? k (l ++ m) = (find? k l).or (find? k m) := by
  induction l with
  | nil => rfl
  | cons e r ih =>
    rw [List.cons_append, find?, find?, ih]
    split <;> simp

theorem mem_of_find? {k : κ} {a : α} {l : List (κ × α)} (h : find? k l = some a) :
    (k, a) ∈ l := by
  induction l with
  | nil => cases h
  | cons e r ih =>
    rw [find?] at h
    split at h
    next hk =>
      cases h
      exact List.mem_cons.mpr (.inl (Prod.ext hk.symm rfl))
    next => exact List.mem_cons_of_mem e (ih h)

theorem get?_isSome_iff {t : Table κ α} {k : κ} : (t.get? k).isSome ↔ k ∈ t.keys := by
  have h : t.get? k = none ↔ k ∉ t.keys := find?_eq_none_iff
  cases hk : t.get? k <;> simp_all

theorem get?_eq_some_iff {t : Table κ α} {k : κ} {a : α} :
    t.get? k = some a ↔ (k, a) ∈ t.entries := by
  obtain ⟨l, h⟩ := t
  show find? k l = some a ↔ (k, a) ∈ l
  induction l with
  | nil => simp [find?]
  | cons e r ih =>
    rw [List.map_cons, List.nodup_cons] at h
    simp only [find?, List.mem_cons]
    split
    next hk =>
      have : (k, a) ∉ r := fun hm => h.1 (hk ▸ List.mem_map_of_mem (f := Prod.fst) hm)
      grind
    next hk => grind

/-- A table that holds nothing under any key is the empty one. -/
theorem eq_empty_iff {t : Table κ α} : t = empty ↔ ∀ k, t.get? k = none := by
  constructor
  · rintro rfl k
    rfl
  · intro h
    obtain ⟨l, hl⟩ := t
    cases l with
    | nil => rfl
    | cons e r =>
      have hfirst := h e.1
      simp [get?, find?] at hfirst

end Table

end FormulaEngine

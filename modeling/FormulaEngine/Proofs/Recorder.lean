import FormulaEngine.Dependency.Recorder
import Mathlib.Data.List.Induction
import Mathlib.Data.List.Nodup
/-!
# The two tables of a recorder

A recorder is changed by registering edges and by clearing dependents. Whatever the changes, its two
tables mirror each other: a dependent is listed with the readers of something exactly if one of its
edges leads there. Clearing removes a reader once for each edge, and several edges can lead to the
same thing; the removals after the first one find nothing to do.
-/
namespace FormulaEngine

namespace Recorder

/-- A change of what a recorder holds. -/
inductive Change where
  | register (d : Dependency)
  | clear (dependent : Option Endpoint)
deriving DecidableEq

def change (r : Recorder) : Change → Recorder
  | .register d => r.register d
  | .clear dependent => r.clear dependent

def after (h : List Change) : Recorder :=
  h.foldl change empty

theorem after_append_singleton (h : List Change) (c : Change) :
    after (h ++ [c]) = (after h).change c := by
  simp [after]

/-- Whether the tables of a recorder belong together. -/
structure Coherent (r : Recorder) : Prop where
  /-- An edge is held under its own dependent. -/
  dependent_eq : ∀ d, ∀ x ∈ r.dependenciesOf d, x.dependent = d
  /-- No edge repeats an earlier one of its dependent. -/
  pairwise : ∀ d, (r.dependenciesOf d).Pairwise fun x y => x.repeats y = false
  /-- The readers of something are the dependents with an edge to it. -/
  mem_readersOf : ∀ i d, d ∈ r.readersOf i ↔ ∃ x ∈ r.dependenciesOf d, x.independent = i
  nodup_readersOf : ∀ i, (r.readersOf i).Nodup
  /-- A dependent without edges has no entry. -/
  edges_ne_nil : ∀ d, r.edges.get? d ≠ some []
  /-- What nobody reads has no entry. -/
  readers_ne_nil : ∀ i, r.readers.get? i ≠ some []

section DropReader

variable (dependent : Option Endpoint) (t : Table Endpoint (List (Option Endpoint)))

private theorem get?_dropReader_of_ne {k i : Endpoint} (h : k ≠ i) :
    (dropReader dependent t k).get? i = t.get? i := by
  unfold dropReader
  split
  · rfl
  · split
    · rw [Table.get?_erase, if_neg h]
    · rw [Table.get?_insert, if_neg h]

private theorem get?_dropReader_self (k : Endpoint) :
    (dropReader dependent t k).get? k =
      ((t.get? k).map (·.filter (· ≠ dependent))).filter (· ≠ []) := by
  unfold dropReader
  cases hk : t.get? k with
  | none => exact hk
  | some known =>
    rw [Option.map_some]
    dsimp only
    cases known.filter (· ≠ dependent) with
    | nil => rw [Table.get?_erase, if_pos rfl]; rfl
    | cons a rest => rw [Table.get?_insert_self]; rfl

private theorem getD_dropReader_self (k : Endpoint) :
    ((dropReader dependent t k).get? k).getD [] = ((t.get? k).getD []).filter (· ≠ dependent) := by
  rw [get?_dropReader_self]
  cases t.get? k with
  | none => rfl
  | some known =>
    rw [Option.map_some, Option.getD_some]
    cases known.filter (· ≠ dependent) <;> rfl

private theorem getD_foldl_dropReader (ks : List Endpoint) (i : Endpoint) :
    ((ks.foldl (dropReader dependent) t).get? i).getD [] =
      if i ∈ ks then ((t.get? i).getD []).filter (· ≠ dependent) else (t.get? i).getD [] := by
  induction ks generalizing t with
  | nil => simp
  | cons k ks ih =>
    rw [List.foldl_cons, ih]
    by_cases hk : k = i
    · subst hk
      simp [getD_dropReader_self]
    · simp [get?_dropReader_of_ne dependent t hk, Ne.symm hk]

variable {t} in
private theorem foldl_dropReader_ne_nil (h : ∀ i, t.get? i ≠ some []) (ks : List Endpoint)
    (i : Endpoint) : (ks.foldl (dropReader dependent) t).get? i ≠ some [] := by
  induction ks generalizing t with
  | nil => exact h i
  | cons k ks ih =>
    apply ih
    intro j
    by_cases hk : k = j
    · subst hk
      simp [get?_dropReader_self]
    · rw [get?_dropReader_of_ne dependent t hk]
      exact h j

end DropReader

variable {r : Recorder}

theorem register_of_known {d : Dependency}
    (h : (r.dependenciesOf d.dependent).any (·.repeats d) = true) : r.register d = r := by
  simp [register, h]

section New

variable {d : Dependency} (hnew : (r.dependenciesOf d.dependent).any (·.repeats d) = false)
include hnew

private theorem get?_edges_register (x : Option Endpoint) :
    (r.register d).edges.get? x =
      if d.dependent = x then some (r.dependenciesOf x ++ [d]) else r.edges.get? x := by
  simp only [register, hnew, Bool.false_eq_true, if_false, Table.get?_insert]
  split
  next h => rw [h]
  next => rfl

private theorem get?_readers_register (i : Endpoint) :
    (r.register d).readers.get? i =
      if d.independent = i then some ((r.readersOf i).insert d.dependent)
      else r.readers.get? i := by
  simp only [register, hnew, Bool.false_eq_true, if_false, Table.get?_insert]
  split
  next h => rw [h]
  next => rfl

private theorem mem_dependenciesOf_register {x : Option Endpoint} {y : Dependency} :
    y ∈ (r.register d).dependenciesOf x ↔ y ∈ r.dependenciesOf x ∨ d.dependent = x ∧ y = d := by
  rw [dependenciesOf, get?_edges_register hnew]
  split
  next h => simp [h]
  next h => simp [h, dependenciesOf]

private theorem mem_readersOf_register {i : Endpoint} {x : Option Endpoint} :
    x ∈ (r.register d).readersOf i ↔ x ∈ r.readersOf i ∨ d.dependent = x ∧ d.independent = i := by
  rw [readersOf, get?_readers_register hnew]
  split
  next h => simp [h, or_comm, eq_comm]
  next h => simp [h, readersOf]

end New

private theorem Coherent.register_of_new (h : r.Coherent) {d : Dependency}
    (hnew : (r.dependenciesOf d.dependent).any (·.repeats d) = false) :
    (r.register d).Coherent where
  dependent_eq := by
    intro x y hy
    rcases (mem_dependenciesOf_register hnew).mp hy with hy | ⟨hx, rfl⟩
    · exact h.dependent_eq x y hy
    · exact hx
  pairwise := by
    intro x
    rw [dependenciesOf, get?_edges_register hnew]
    split
    next hx =>
      subst hx
      refine List.pairwise_append.mpr ⟨h.pairwise _, List.pairwise_singleton _ _, ?_⟩
      intro y hy z hz
      rw [List.mem_singleton.mp hz]
      exact Bool.eq_false_iff.mpr (List.any_eq_false.mp hnew y hy)
    next => exact h.pairwise x
  mem_readersOf := by
    intro i x
    rw [mem_readersOf_register hnew, h.mem_readersOf]
    simp only [mem_dependenciesOf_register hnew]
    constructor
    · rintro (⟨y, hy, hi⟩ | ⟨hx, hi⟩)
      · exact ⟨y, .inl hy, hi⟩
      · exact ⟨d, .inr ⟨hx, rfl⟩, hi⟩
    · rintro ⟨y, hy | ⟨hx, rfl⟩, hi⟩
      · exact .inl ⟨y, hy, hi⟩
      · exact .inr ⟨hx, hi⟩
  nodup_readersOf := by
    intro i
    rw [readersOf, get?_readers_register hnew]
    split
    · exact List.Nodup.insert (h.nodup_readersOf i)
    · exact h.nodup_readersOf i
  edges_ne_nil := by
    intro x
    rw [get?_edges_register hnew]
    split
    · simp
    · exact h.edges_ne_nil x
  readers_ne_nil := by
    intro i
    rw [get?_readers_register hnew]
    split
    · exact fun heq => List.ne_nil_of_mem List.mem_insert_self (Option.some.inj heq)
    · exact h.readers_ne_nil i

theorem Coherent.register (h : r.Coherent) (d : Dependency) : (r.register d).Coherent := by
  cases hknown : (r.dependenciesOf d.dependent).any (·.repeats d) with
  | true => rwa [register_of_known hknown]
  | false => exact h.register_of_new hknown

private theorem Coherent.readersOf_clear (h : r.Coherent) (d : Option Endpoint) (i : Endpoint) :
    (r.clear d).readersOf i = (r.readersOf i).filter (· ≠ d) := by
  show ((List.foldl _ r.readers _).get? i).getD [] = _
  rw [getD_foldl_dropReader]
  split
  next => rfl
  next hi =>
    have hd : d ∉ r.readersOf i := by
      rw [h.mem_readersOf]
      simpa using hi
    refine (List.filter_eq_self.mpr fun x hx => ?_).symm
    simpa using ne_of_mem_of_not_mem hx hd

theorem Coherent.clear (h : r.Coherent) (d : Option Endpoint) : (r.clear d).Coherent where
  dependent_eq := by
    intro x y hy
    rw [dependenciesOf_clear] at hy
    split at hy
    · cases hy
    · exact h.dependent_eq x y hy
  pairwise := by
    intro x
    rw [dependenciesOf_clear]
    split
    · exact List.Pairwise.nil
    · exact h.pairwise x
  mem_readersOf := by
    intro i x
    rw [h.readersOf_clear, dependenciesOf_clear, List.mem_filter, h.mem_readersOf]
    by_cases hx : d = x
    · simp [hx]
    · simp [hx, Ne.symm hx]
  nodup_readersOf := by
    intro i
    rw [h.readersOf_clear]
    exact (h.nodup_readersOf i).filter _
  edges_ne_nil := by
    intro x
    show (r.edges.erase d).get? x ≠ some []
    rw [Table.get?_erase]
    split
    · simp
    · exact h.edges_ne_nil x
  readers_ne_nil := foldl_dropReader_ne_nil d h.readers_ne_nil _

theorem coherent_empty : empty.Coherent where
  dependent_eq := by simp
  pairwise := by simp
  mem_readersOf := by simp [readersOf, empty, dependenciesOf]
  nodup_readersOf := by simp [readersOf, empty]
  edges_ne_nil := by simp [empty]
  readers_ne_nil := by simp [empty]

private theorem Coherent.change (h : r.Coherent) (c : Change) : (r.change c).Coherent := by
  cases c with
  | register d => exact h.register d
  | clear d => exact h.clear d

theorem coherent_after (h : List Change) : (after h).Coherent := by
  induction h using List.reverseRecOn with
  | nil => exact coherent_empty
  | append_singleton h c ih =>
    rw [after_append_singleton]
    exact ih.change c

private theorem mem_dependenciesOf_iff {d : Option Endpoint} {x : Dependency} :
    x ∈ r.dependenciesOf d ↔ ∃ ds, r.edges.get? d = some ds ∧ x ∈ ds := by
  cases h : r.edges.get? d <;> simp [dependenciesOf, h]

private theorem mem_readersOf_iff {i : Endpoint} {d : Option Endpoint} :
    d ∈ r.readersOf i ↔ ∃ ds, r.readers.get? i = some ds ∧ d ∈ ds := by
  cases h : r.readers.get? i <;> simp [readersOf, h]

theorem dependenciesOf_of_get? {d : Option Endpoint} {ds : List Dependency}
    (h : r.edges.get? d = some ds) : r.dependenciesOf d = ds := by
  rw [dependenciesOf, h, Option.getD_some]

private theorem readersOf_of_get? {i : Endpoint} {ds : List (Option Endpoint)}
    (h : r.readers.get? i = some ds) : r.readersOf i = ds := by
  rw [readersOf, h, Option.getD_some]

private theorem Coherent.eq_empty_iff (h : r.Coherent) :
    r = empty ↔ ∀ d, r.dependenciesOf d = [] := by
  constructor
  · rintro rfl d
    rfl
  · intro hnone
    have hedges : r.edges = .empty := by
      rw [Table.eq_empty_iff]
      intro d
      cases hd : r.edges.get? d with
      | none => rfl
      | some ds =>
        rw [← dependenciesOf_of_get? hd, hnone d] at hd
        exact absurd hd (h.edges_ne_nil d)
    have hreaders : r.readers = .empty := by
      rw [Table.eq_empty_iff]
      intro i
      cases hi : r.readers.get? i with
      | none => rfl
      | some ds =>
        have hno : r.readersOf i = [] := by
          rw [List.eq_nil_iff_forall_not_mem]
          intro d hd
          obtain ⟨x, hx, -⟩ := (h.mem_readersOf i d).mp hd
          rw [hnone d] at hx
          cases hx
        rw [← readersOf_of_get? hi, hno] at hi
        exact absurd hi (h.readers_ne_nil i)
    obtain ⟨edges, readers⟩ := r
    exact congrArg₂ Recorder.mk hedges hreaders

private theorem Coherent.foldl_clear (h : r.Coherent) (ds : List (Option Endpoint)) :
    (ds.foldl Recorder.clear r).Coherent := by
  induction ds generalizing r with
  | nil => exact h
  | cons d ds ih => exact ih (h.clear d)

private theorem dependenciesOf_foldl_clear (ds : List (Option Endpoint)) (r : Recorder)
    (x : Option Endpoint) :
    (ds.foldl clear r).dependenciesOf x = if x ∈ ds then [] else r.dependenciesOf x := by
  induction ds generalizing r with
  | nil => simp
  | cons d ds ih =>
    rw [List.foldl_cons, ih, dependenciesOf_clear]
    by_cases hx : d = x
    · simp [hx]
    · simp [hx, Ne.symm hx]

/-- Whatever was registered and cleared: no entry of a table is empty, an edge is held under its own
dependent and only once, and the readers of something are the dependents with an edge to it. To
clear dependents leaves two empty tables exactly if no other dependent has an edge. -/
theorem tables_after (h : List Change) :
    (∀ d ds, (after h).edges.get? d = some ds → ds ≠ [] ∧ (∀ x ∈ ds, x.dependent = d) ∧
        ds.Pairwise fun x y => ¬(x.independent = y.independent ∧ x.aggregates = y.aggregates)) ∧
      (∀ i ds, (after h).readers.get? i = some ds → ds ≠ [] ∧ ds.Nodup) ∧
      (∀ i d, (∃ ds, (after h).readers.get? i = some ds ∧ d ∈ ds) ↔
        ∃ ds, (after h).edges.get? d = some ds ∧ ∃ x ∈ ds, x.independent = i) ∧
      ∀ ds : List (Option Endpoint), ds.foldl clear (after h) = empty ↔
        ∀ d, (after h).dependenciesOf d ≠ [] → d ∈ ds := by
  have hcoherent := coherent_after h
  refine ⟨?_, ?_, ?_, ?_⟩
  · intro d ds hd
    have heq := dependenciesOf_of_get? hd
    refine ⟨?_, ?_, ?_⟩
    · rintro rfl
      exact hcoherent.edges_ne_nil d hd
    · exact heq ▸ hcoherent.dependent_eq d
    · rw [← heq]
      refine (hcoherent.pairwise d).imp fun hxy hkey => ?_
      rw [Dependency.repeats_iff.mpr hkey] at hxy
      cases hxy
  · intro i ds hi
    constructor
    · rintro rfl
      exact hcoherent.readers_ne_nil i hi
    · exact readersOf_of_get? hi ▸ hcoherent.nodup_readersOf i
  · intro i d
    rw [← mem_readersOf_iff, hcoherent.mem_readersOf]
    constructor
    · rintro ⟨x, hx, hi⟩
      obtain ⟨ds, hds, hx⟩ := mem_dependenciesOf_iff.mp hx
      exact ⟨ds, hds, x, hx, hi⟩
    · rintro ⟨ds, hds, x, hx, hi⟩
      exact ⟨x, mem_dependenciesOf_iff.mpr ⟨ds, hds, hx⟩, hi⟩
  · intro ds
    rw [(hcoherent.foldl_clear ds).eq_empty_iff]
    simp only [dependenciesOf_foldl_clear]
    grind

end Recorder

end FormulaEngine

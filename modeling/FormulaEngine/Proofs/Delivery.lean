import FormulaEngine.Proofs.History
import Mathlib.Data.Prod.Lex
import Mathlib.Data.String.Basic
/-!
# What deliveries do to a recorder

A delivery concerns one dependent: it voids the edges of that dependent or adds an edge at their end,
and leaves the edges of all others. An edge that is held already is not added again. The edges of all
dependents determine what a recorder answers.
-/
namespace FormulaEngine

namespace Endpoint

def key (a : Endpoint) : String ×ₗ String ×ₗ String :=
  toLex (a.kind.label, toLex (a.id, a.name))

private theorem key_injective {a b : Endpoint} (h : a.key = b.key) : a = b := by
  obtain ⟨k, i, n⟩ := a
  obtain ⟨k', i', n'⟩ := b
  simp only [key, EmbeddingLike.apply_eq_iff_eq, Prod.mk.injEq] at h
  obtain ⟨hkind, rfl, rfl⟩ := h
  have hkinds : some k = some k' := by
    rw [← EndpointKind.ofLabel?_label k, hkind, EndpointKind.ofLabel?_label]
  rw [Option.some.inj hkinds]

private theorem le_iff (a b : Endpoint) : a.le b = true ↔ a.key ≤ b.key := by
  rw [le, key, key, Prod.Lex.le_iff, Prod.Lex.le_iff]
  dsimp only [ofLex_toLex]
  split
  next hkind => simp [hkind]
  next hkind =>
    split
    next hid => simp_all
    next hid => simp_all

private theorem le?_trans (a b c : Option Endpoint) (hab : le? a b = true) (hbc : le? b c = true) :
    le? a c = true := by
  cases a <;> cases b <;> cases c <;> simp only [le?, le_iff, Bool.false_eq_true] at *
  exact hab.trans hbc

private theorem le?_total (a b : Option Endpoint) : (le? a b || le? b a) = true := by
  cases a <;> cases b <;> simp only [le?, Bool.or_eq_true, le_iff, true_or, or_true]
  exact le_total _ _

private theorem le?_antisymm {a b : Option Endpoint} (hab : le? a b = true) (hba : le? b a = true) :
    a = b := by
  cases a <;> cases b <;> simp only [le?, le_iff, Bool.false_eq_true] at *
  rw [key_injective (hab.antisymm hba)]

end Endpoint

def Delivery.dependent : Delivery → Option Endpoint
  | .register d => d.dependent
  | .clear dependent => some dependent

namespace Recorder

variable {r r' : Recorder} {d : Option Endpoint}

def receiveAll (r : Recorder) (xs : List Delivery) : Recorder :=
  xs.foldl receive r

theorem receiveAll_append (r : Recorder) (xs ys : List Delivery) :
    r.receiveAll (xs ++ ys) = (r.receiveAll xs).receiveAll ys :=
  List.foldl_append

theorem Coherent.receiveAll (h : r.Coherent) (xs : List Delivery) : (r.receiveAll xs).Coherent := by
  induction xs generalizing r with
  | nil => exact h
  | cons x xs ih =>
    apply ih
    cases x with
    | register d => exact h.register d
    | clear dependent => exact h.clear (some dependent)

private theorem dependenciesOf_receive_of_ne {x : Delivery} (h : x.dependent ≠ d) :
    (r.receive x).dependenciesOf d = r.dependenciesOf d := by
  cases x with
  | register e => rw [receive, dependenciesOf_register, if_neg fun hnew => h hnew.1]
  | clear dependent =>
    have hne : some dependent ≠ d := h
    rw [receive, dependenciesOf_clear, if_neg hne]

private theorem dependenciesOf_receive_congr (h : r.dependenciesOf d = r'.dependenciesOf d)
    (x : Delivery) : (r.receive x).dependenciesOf d = (r'.receive x).dependenciesOf d := by
  cases x with
  | register e => rw [receive, receive, dependenciesOf_register, dependenciesOf_register, h]
  | clear dependent => rw [receive, receive, dependenciesOf_clear, dependenciesOf_clear, h]

theorem dependenciesOf_receiveAll_of_ne {xs : List Delivery} (h : ∀ x ∈ xs, x.dependent ≠ d) :
    (r.receiveAll xs).dependenciesOf d = r.dependenciesOf d := by
  induction xs generalizing r with
  | nil => rfl
  | cons x xs ih =>
    rw [List.forall_mem_cons] at h
    exact (ih h.2).trans (dependenciesOf_receive_of_ne h.1)

theorem dependenciesOf_receiveAll_congr (h : r.dependenciesOf d = r'.dependenciesOf d)
    (xs : List Delivery) :
    (r.receiveAll xs).dependenciesOf d = (r'.receiveAll xs).dependenciesOf d := by
  induction xs generalizing r r' with
  | nil => exact h
  | cons x xs ih => exact ih (dependenciesOf_receive_congr h x)

theorem dependenciesOf_prefix_receiveAll {xs : List Delivery}
    (h : ∀ x ∈ xs, ∀ o, x = .clear o → d ≠ some o) :
    r.dependenciesOf d <+: (r.receiveAll xs).dependenciesOf d := by
  induction xs generalizing r with
  | nil => exact List.prefix_refl _
  | cons x xs ih =>
    rw [List.forall_mem_cons] at h
    refine List.IsPrefix.trans ?_ (ih h.2)
    cases x with
    | register e =>
      rw [receive, dependenciesOf_register]
      split
      · exact List.prefix_append _ _
      · exact List.prefix_refl _
    | clear o => rw [receive, dependenciesOf_clear, if_neg (h.1 o rfl).symm]

/-- A dependent without edges comes to have those that are registered, without the ones that repeat
an earlier one. -/
theorem dependenciesOf_receiveAll_register (hnone : r.dependenciesOf d = []) {ds : List Dependency}
    (hds : ∀ x ∈ ds, x.dependent = d) :
    (r.receiveAll (ds.map .register)).dependenciesOf d = ds.eraseDupsBy Dependency.repeats := by
  induction ds using List.reverseRecOn with
  | nil => exact hnone
  | append_singleton ds x ih =>
    rw [List.forall_mem_append, List.forall_mem_singleton] at hds
    have hcomm : x.repeats = (·.repeats x) := funext x.repeats_comm
    rw [List.map_append, receiveAll_append, eraseDupsBy_append_singleton, hcomm, ← ih hds.1]
    change ((r.receiveAll _).register x).dependenciesOf d = _
    rw [dependenciesOf_register]
    simp only [hds.2, true_and]
    cases ((r.receiveAll _).dependenciesOf d).any (·.repeats x) <;> rfl

/-- Whether a recorder holds an edge already, or one that it repeats. -/
def Knows (r : Recorder) (x : Dependency) : Prop :=
  (r.dependenciesOf x.dependent).any (·.repeats x) = true

private theorem Knows.mono {x : Dependency} (h : r.Knows x)
    (hkept : r.dependenciesOf x.dependent <+: r'.dependenciesOf x.dependent) : r'.Knows x := by
  obtain ⟨y, hy, hxy⟩ := List.any_eq_true.mp h
  exact List.any_eq_true.mpr ⟨y, hkept.subset hy, hxy⟩

private theorem knows_register (r : Recorder) (x : Dependency) : (r.register x).Knows x := by
  rw [Knows, dependenciesOf_register]
  cases hknown : (r.dependenciesOf x.dependent).any (·.repeats x) with
  | true => simpa using hknown
  | false => simp [Dependency.repeats]

theorem knows_receiveAll {ds : List Dependency} {x : Dependency} (hx : x ∈ ds) :
    (r.receiveAll (ds.map .register)).Knows x := by
  obtain ⟨before, rest, rfl⟩ := List.append_of_mem hx
  rw [List.map_append, receiveAll_append, List.map_cons]
  refine (knows_register (r.receiveAll (before.map .register)) x).mono ?_
  apply dependenciesOf_prefix_receiveAll
  simp

theorem receiveAll_of_known {ds : List Dependency} (h : ∀ x ∈ ds, r.Knows x) :
    r.receiveAll (ds.map .register) = r := by
  induction ds with
  | nil => rfl
  | cons x ds ih =>
    rw [List.forall_mem_cons] at h
    have hfirst : r.receive (.register x) = r := register_of_known h.1
    change (r.receive (.register x)).receiveAll (ds.map .register) = r
    rw [hfirst]
    exact ih h.2

section Answers

variable (h : r.Coherent)
include h

theorem Coherent.mem_dependentsOf (i : Endpoint) (d : Option Endpoint) :
    d ∈ r.dependentsOf i ↔ ∃ x ∈ r.dependenciesOf d, x.independent = i := by
  rw [dependentsOf, List.mem_mergeSort, h.mem_readersOf]

theorem Coherent.size_eq_sum_of_subset {S : Finset (Option Endpoint)}
    (hS : ∀ d, r.dependenciesOf d ≠ [] → d ∈ S) :
    r.size = ∑ d ∈ S, (r.dependenciesOf d).length := by
  rw [size_eq_sum]
  apply Finset.sum_subset
  · intro d hd
    rw [List.mem_toFinset] at hd
    obtain ⟨ds, hds⟩ := Option.isSome_iff_exists.mp (Table.get?_isSome_iff.mpr hd)
    apply hS
    rw [dependenciesOf_of_get? hds]
    rintro rfl
    exact h.edges_ne_nil d hds
  · intro d _ hd
    rw [List.mem_toFinset, ← Table.get?_isSome_iff, Option.not_isSome_iff_eq_none] at hd
    rw [dependenciesOf, hd]
    rfl

/-- Recorders that hold the same edges from each dependent answer the same. -/
theorem Coherent.answers_congr (h' : r'.Coherent)
    (heq : ∀ d, r.dependenciesOf d = r'.dependenciesOf d) :
    (∀ d, r.independentsOf d = r'.independentsOf d) ∧
      (∀ i, r.dependentsOf i = r'.dependentsOf i) ∧ r.size = r'.size := by
  refine ⟨?_, ?_, ?_⟩
  · intro d
    rw [independentsOf, independentsOf, heq]
  · intro i
    have hmem (d : Option Endpoint) : d ∈ r.readersOf i ↔ d ∈ r'.readersOf i := by
      rw [h.mem_readersOf, h'.mem_readersOf, heq]
    -- The tables may list the readers in different orders, which sorting takes away.
    have hperm : (r.readersOf i).Perm (r'.readersOf i) :=
      (List.perm_ext_iff_of_nodup (h.nodup_readersOf i) (h'.nodup_readersOf i)).mpr hmem
    have hsorted (l : List (Option Endpoint)) :=
      List.pairwise_mergeSort Endpoint.le?_trans Endpoint.le?_total l
    refine List.Perm.eq_of_pairwise (fun a b _ _ => Endpoint.le?_antisymm) (hsorted _) (hsorted _) ?_
    exact ((List.mergeSort_perm _ _).trans hperm).trans (List.mergeSort_perm _ _).symm
  · have hsubset (d : Option Endpoint) (hd : r.dependenciesOf d ≠ []) :
        d ∈ r'.edges.keys.toFinset := by
      rw [heq] at hd
      rw [List.mem_toFinset, ← Table.get?_isSome_iff]
      cases hget : r'.edges.get? d with
      | none => simp [dependenciesOf, hget] at hd
      | some ds => rfl
    rw [h.size_eq_sum_of_subset hsubset, size_eq_sum]
    simp only [heq]

end Answers

end Recorder

end FormulaEngine

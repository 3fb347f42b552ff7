import FormulaEngine.Proofs.Recorder
import Mathlib.Algebra.BigOperators.Group.Finset.Basic
import Mathlib.Data.List.DropRight
/-!
# What a recorder holds, by its history

The changes of a recorder determine all of its answers. From each dependent it holds the edges that
were registered since the dependent was last cleared, without those that repeat an earlier one. The
answers about readers and the number of edges follow from these lists alone.
-/
namespace FormulaEngine

section EraseDupsBy

variable {α : Type} (r : α → α → Bool)

private theorem eraseDupsBy_loop_append_singleton (l known : List α) (a : α) :
    List.eraseDupsBy.loop r (l ++ [a]) known =
      if (List.eraseDupsBy.loop r l known).any (r a) then List.eraseDupsBy.loop r l known
      else List.eraseDupsBy.loop r l known ++ [a] := by
  induction l generalizing known with
  | nil =>
    simp only [List.nil_append, List.eraseDupsBy.loop, List.any_reverse]
    cases known.any (r a) <;> simp
  | cons b l ih =>
    rw [List.cons_append, List.eraseDupsBy.loop, List.eraseDupsBy.loop]
    cases known.any (r b) with
    | true => exact ih known
    | false => exact ih (b :: known)

theorem eraseDupsBy_append_singleton (l : List α) (a : α) :
    (l ++ [a]).eraseDupsBy r =
      if (l.eraseDupsBy r).any (r a) then l.eraseDupsBy r else l.eraseDupsBy r ++ [a] :=
  eraseDupsBy_loop_append_singleton r l [] a

private theorem nodup_eraseDups [BEq α] [LawfulBEq α] (l : List α) : l.eraseDups.Nodup := by
  induction l using List.reverseRecOn with
  | nil => exact List.nodup_nil
  | append_singleton l a ih =>
    rw [List.eraseDups, eraseDupsBy_append_singleton]
    split
    · exact ih
    next h =>
      refine List.nodup_append.mpr ⟨ih, List.nodup_singleton a, ?_⟩
      intro b hb c hc hbc
      rw [List.mem_singleton.mp hc] at hbc
      exact h (List.any_eq_true.mpr ⟨b, hb, by simp [hbc]⟩)

end EraseDupsBy

theorem Dependency.repeats_comm (a b : Dependency) : a.repeats b = b.repeats a := by
  simp [repeats, eq_comm]

namespace Recorder

/-- The changes that a recorder went through, the oldest one first. -/
abbrev History := List Change

namespace History

/-- The changes since a dependent was last cleared. -/
def sinceClear (h : History) (dependent : Option Endpoint) : History :=
  h.rtakeWhile (· ≠ .clear dependent)

def registered (h : History) (dependent : Option Endpoint) : List Dependency :=
  h.filterMap fun
    | .register d => if d.dependent = dependent then some d else none
    | .clear _ => none

/-- The edges from a dependent that count: those registered since it was last cleared, without the
ones that repeat an earlier one. -/
def edgesFrom (h : History) (dependent : Option Endpoint) : List Dependency :=
  (registered (h.sinceClear dependent) dependent).eraseDupsBy Dependency.repeats

def dependents (h : History) : List (Option Endpoint) :=
  h.filterMap fun
    | .register d => some d.dependent
    | .clear _ => none

private theorem registered_append (h h' : History) (d : Option Endpoint) :
    registered (h ++ h') d = h.registered d ++ h'.registered d :=
  List.filterMap_append

private theorem registered_register (x : Dependency) (d : Option Endpoint) :
    registered [.register x] d = if x.dependent = d then [x] else [] := by
  by_cases hx : x.dependent = d <;> simp [registered, hx]

variable (h : History) (d : Option Endpoint)

private theorem edgesFrom_append_register (x : Dependency) :
    edgesFrom (h ++ [.register x]) d =
      if x.dependent = d ∧ (h.edgesFrom d).any (·.repeats x) = false then h.edgesFrom d ++ [x]
      else h.edgesFrom d := by
  have hsince : sinceClear (h ++ [.register x]) d = h.sinceClear d ++ [.register x] :=
    List.rtakeWhile_concat_pos _ _ _ (by simp)
  rw [edgesFrom, hsince, registered_append, registered_register]
  by_cases hx : x.dependent = d
  · have hcomm : x.repeats = (·.repeats x) := funext x.repeats_comm
    rw [if_pos hx, eraseDupsBy_append_singleton, ← edgesFrom, hcomm]
    simp only [hx, true_and]
    cases (h.edgesFrom d).any (·.repeats x) <;> rfl
  · rw [if_neg hx, if_neg (fun hnew => hx hnew.1), List.append_nil]
    rfl

private theorem edgesFrom_append_clear (y : Option Endpoint) :
    edgesFrom (h ++ [.clear y]) d = if y = d then [] else h.edgesFrom d := by
  by_cases hy : y = d
  · have hsince : sinceClear (h ++ [.clear y]) d = [] :=
      List.rtakeWhile_concat_neg _ _ _ (by simp [hy])
    rw [edgesFrom, hsince, if_pos hy]
    rfl
  · have hsince : sinceClear (h ++ [.clear y]) d = h.sinceClear d ++ [.clear y] :=
      List.rtakeWhile_concat_pos _ _ _ (by simp [hy])
    rw [edgesFrom, hsince, registered_append, if_neg hy]
    exact congrArg _ (List.append_nil _)

private theorem dependents_append (h h' : History) :
    dependents (h ++ h') = h.dependents ++ h'.dependents :=
  List.filterMap_append

variable {h d} in
private theorem mem_dependents (hne : h.edgesFrom d ≠ []) : d ∈ h.dependents := by
  induction h using List.reverseRecOn with
  | nil => exact absurd rfl hne
  | append_singleton h c ih =>
    rw [dependents_append, List.mem_append]
    cases c with
    | register x =>
      by_cases hx : x.dependent = d
      · exact .inr (by simp [dependents, hx])
      · rw [edgesFrom_append_register, if_neg fun hnew => hx hnew.1] at hne
        exact .inl (ih hne)
    | clear y =>
      rw [edgesFrom_append_clear] at hne
      split at hne
      · exact absurd rfl hne
      · exact .inl (ih hne)

end History

/-- A recorder holds the edges that count in its history. -/
private theorem dependenciesOf_after (h : History) (d : Option Endpoint) :
    (after h).dependenciesOf d = h.edgesFrom d := by
  induction h using List.reverseRecOn with
  | nil => rfl
  | append_singleton h c ih =>
    rw [after_append_singleton]
    cases c with
    | register x => rw [change, dependenciesOf_register, ih, History.edgesFrom_append_register]
    | clear y => rw [change, dependenciesOf_clear, ih, History.edgesFrom_append_clear]

theorem size_eq_sum (r : Recorder) :
    r.size = ∑ d ∈ r.edges.keys.toFinset, (r.dependenciesOf d).length := by
  have hvalues : r.edges.values.map List.length =
      r.edges.keys.map fun d => (r.dependenciesOf d).length := by
    rw [Table.values, Table.keys, List.map_map, List.map_map]
    apply List.map_congr_left
    intro e he
    have hget : r.edges.get? e.1 = some e.2 := Table.get?_eq_some_iff.mpr he
    simp [dependenciesOf_of_get? hget]
  have hnodup : r.edges.keys.Nodup := r.edges.nodup_keys
  rw [List.sum_toFinset _ hnodup, size, hvalues]
  rfl

/-- The answers of a recorder are told by its history. -/
theorem answers_after (h : History) :
    (∀ d, (after h).dependenciesOf d = h.edgesFrom d) ∧
      (∀ d, ((after h).independentsOf d).Nodup ∧
        ∀ i, i ∈ (after h).independentsOf d ↔ ∃ x ∈ h.edgesFrom d, x.independent = i) ∧
      (∀ i, ((after h).dependentsOf i).Nodup ∧
        ∀ d, d ∈ (after h).dependentsOf i ↔ ∃ x ∈ h.edgesFrom d, x.independent = i) ∧
      (after h).size = ∑ d ∈ h.dependents.toFinset, (h.edgesFrom d).length := by
  have hcoherent := coherent_after h
  have hheld := dependenciesOf_after h
  refine ⟨hheld, ?_, ?_, ?_⟩
  · intro d
    rw [independentsOf, (List.mergeSort_perm _ _).nodup_iff]
    refine ⟨nodup_eraseDups _, fun i => ?_⟩
    rw [List.mem_mergeSort, List.mem_eraseDups, List.mem_map, hheld]
  · intro i
    rw [dependentsOf, (List.mergeSort_perm _ _).nodup_iff]
    refine ⟨hcoherent.nodup_readersOf i, fun d => ?_⟩
    rw [List.mem_mergeSort, hcoherent.mem_readersOf, hheld]
  · rw [size_eq_sum]
    simp only [hheld]
    apply Finset.sum_subset
    · intro d hd
      rw [List.mem_toFinset] at hd ⊢
      obtain ⟨ds, hds⟩ := Option.isSome_iff_exists.mp (Table.get?_isSome_iff.mpr hd)
      apply History.mem_dependents
      rw [← hheld, dependenciesOf_of_get? hds]
      rintro rfl
      exact hcoherent.edges_ne_nil d hds
    · intro d _ hd
      rw [List.mem_toFinset, ← Table.get?_isSome_iff, Option.not_isSome_iff_eq_none] at hd
      rw [← hheld, dependenciesOf, hd]
      rfl

/-- Of two edges that repeat each other the first one stays, whichever contexts found them. -/
example :
    let edge (calls : List Int) (context : String) : Dependency :=
      ⟨.random, none, some calls, some context⟩
    History.edgesFrom [.register (edge [] "a"), .clear none, .register (edge [0] "a"),
      .register (edge [] "b"), .register (edge [0] "b")] none = [edge [0] "a", edge [] "b"] := rfl

end Recorder

end FormulaEngine

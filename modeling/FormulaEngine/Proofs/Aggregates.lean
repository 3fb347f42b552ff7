import FormulaEngine.Proofs.Bookkeeping
/-!
# Aggregate calls

A context knows whether an aggregate call was opened since a compilation was last begun, by whoever
opens calls or by the compilation itself, and whether the compilation succeeded or was stopped. What
an evaluation opens does not count. The positions of the aggregate calls that are open now are in
order, and there is such a call only if one was opened.
-/
namespace FormulaEngine

namespace Pass

variable {p : Pass} {calls : List OpenCall}

private theorem aggregatePositions_sublist (calls : List OpenCall) :
    (aggregatePositions calls).Sublist (List.range calls.length) := by
  have hall : calls.reverse.zipIdx.map Prod.snd = List.range calls.length := by
    rw [List.zipIdx_map_snd, List.length_reverse, List.range_eq_range']
  rw [← hall]
  exact List.filter_sublist.map Prod.snd

private theorem exists_of_mem_aggregatePositions {i : Nat} (h : i ∈ aggregatePositions calls) :
    ∃ call ∈ calls, call.isAggregate = true := by
  obtain ⟨⟨call, j⟩, hmem, -⟩ := List.mem_map.mp h
  obtain ⟨hzip, haggregate⟩ := List.mem_filter.mp hmem
  exact ⟨call, List.mem_reverse.mp (List.fst_mem_of_mem_zipIdx hzip), haggregate⟩

private theorem pairwise_aggregates (p : Pass) : p.aggregates.Pairwise (· < ·) :=
  List.pairwise_lt_range.sublist (aggregatePositions_sublist p.openCalls)

private theorem lt_depth_of_mem_aggregates {i : Nat} (h : i ∈ p.aggregates) : i < p.depth :=
  List.mem_range.mp ((aggregatePositions_sublist p.openCalls).subset h)

end Pass

namespace Context

/-- The calls that were opened in a step, for good or by a compilation. -/
def Step.opened (x : Step) : List OpenCall :=
  x.action.opened x.before.setting

private theorem opened_after (s : Setting) (draws : Draws) (actions : List Action) :
    let c := Context.new s draws
    let opened := (currentPass (c.history actions)).flatMap Step.opened
    (c.after actions).pass.openCalls ⊆ opened ∧
      (c.after actions).pass.hasAggregates = opened.any OpenCall.isAggregate := by
  intro c
  induction actions using List.reverseRecOn with
  | nil => exact ⟨List.Subset.refl [], rfl⟩
  | append_singleton actions a ih =>
    dsimp only at ih ⊢
    obtain ⟨hcalls, hflag⟩ := ih
    let x : Step := ⟨c.after actions, a⟩
    have heffect := x.effect (outbox_after rfl actions)
    have hcalls' : (c.after (actions ++ [a])).pass.openCalls ⊆
        x.opened ++ if a.beginsCompilation then [] else (c.after actions).pass.openCalls := by
      rw [after_append_singleton]
      exact heffect.openCalls
    have hflag' : (c.after (actions ++ [a])).pass.hasAggregates =
        ((if a.beginsCompilation then false else (c.after actions).pass.hasAggregates) ||
          x.opened.any OpenCall.isAggregate) := by
      rw [after_append_singleton]
      exact heffect.hasAggregates
    rw [hflag', history_append_singleton, currentPass_append_singleton, List.flatMap_append,
      List.flatMap_singleton, List.any_append]
    cases hbegins : a.beginsCompilation with
    | true =>
      rw [hbegins, if_pos rfl, List.append_nil] at hcalls'
      simpa [x, hbegins] using hcalls'
    | false =>
      rw [hbegins, if_neg Bool.false_ne_true] at hcalls'
      have hearlier : (c.after (actions ++ [a])).pass.openCalls ⊆
          (currentPass (c.history actions)).flatMap Step.opened ++ x.opened := by
        intro call hcall
        cases List.mem_append.mp (hcalls' hcall) with
        | inl hnow => exact List.mem_append_right _ hnow
        | inr hbefore => exact List.mem_append_left _ (hcalls hbefore)
      simpa [x, hbegins, hflag] using hearlier

/-- After any actions, of which each may succeed or fail, a context has met an aggregate call exactly
if one was opened since a compilation was last begun, explicitly or by that compilation. The
positions of the aggregate calls that are open are strictly increasing, they lie below the depth,
and if there are any then an aggregate call was met. -/
theorem hasAggregates_after (s : Setting) (draws : Draws) (actions : List Action) :
    let c := (Context.new s draws).after actions
    let history := (Context.new s draws).history actions
    (c.pass.hasAggregates = true ↔
        ∃ x ∈ currentPass history, ∃ call ∈ x.opened, call.isAggregate = true) ∧
      c.pass.aggregates.Pairwise (· < ·) ∧ (∀ i ∈ c.pass.aggregates, i < c.pass.depth) ∧
      (c.pass.aggregates ≠ [] → c.pass.hasAggregates = true) := by
  intro c history
  obtain ⟨hcalls, hflag⟩ := opened_after s draws actions
  refine ⟨?_, c.pass.pairwise_aggregates, fun i => Pass.lt_depth_of_mem_aggregates, ?_⟩
  · rw [hflag, List.any_flatMap]
    simp only [List.any_eq_true]
    exact Iff.rfl
  · intro hsome
    obtain ⟨i, hi⟩ := List.exists_mem_of_ne_nil _ hsome
    obtain ⟨call, hcall, haggregate⟩ := Pass.exists_of_mem_aggregatePositions hi
    rw [hflag, List.any_eq_true]
    exact ⟨call, hcalls hcall, haggregate⟩

end Context

end FormulaEngine

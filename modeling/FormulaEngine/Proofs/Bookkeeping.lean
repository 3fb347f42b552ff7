import FormulaEngine.Proofs.Steps
/-!
# Bookkeeping

A context with a manager that lists what it is told. After any actions, of which each may succeed or
fail, the dependencies of the compilation are those that the manager was told of since a compilation
was last begun, except for those of evaluations, and the dependencies of the evaluation are those
that it was told of in the last evaluation. Nothing is lost, told twice or filed elsewhere.
-/
namespace FormulaEngine

namespace Dependency.Completes

variable {s t : Setting} {d given : Dependency}

private theorem congr (h : d.Completes s given) (howner : s.owner = t.owner)
    (hlabel : s.label = t.label) : d.Completes t given :=
  ⟨h.independent, howner ▸ h.dependent, h.aggregates, hlabel ▸ h.context⟩

end Dependency.Completes

namespace Context

/-- An action, and the context with which it was performed. -/
structure Step where
  before : Context
  action : Action

namespace Step

def heard (x : Step) : List Delivery :=
  x.before.reports x.action

def registered (x : Step) : List Dependency :=
  x.heard.filterMap fun
    | .register d => some d
    | .clear _ => none

/-- What the action of a step does, in terms of the dependencies that the manager was told of. -/
theorem effect (x : Step) (h : x.before.pass.outbox = []) :
    x.action.Effect x.before (x.action.perform x.before).2 x.registered := by
  obtain ⟨ds, heffect⟩ := x.action.exists_effect x.before
  have hheard : x.heard = x.action.voided x.before.setting ++ ds.map .register := by
    rw [heard, reports, heffect.outbox, h, List.nil_append]
  have hvoided : (x.action.voided x.before.setting).filterMap
      (fun | .register d => some d | .clear _ => none) = ([] : List Dependency) := by
    unfold Action.voided
    split
    · cases x.before.setting.owner <;> rfl
    · rfl
  have hregistered : x.registered = ds := by
    rw [registered, hheard, List.filterMap_append, hvoided, List.nil_append, List.filterMap_map]
    exact List.filterMap_some
  rwa [hregistered]

end Step

def after (c : Context) (actions : List Action) : Context :=
  actions.foldl performed c

def history (c : Context) : List Action → List Step
  | [] => []
  | a :: actions => ⟨c, a⟩ :: (c.performed a).history actions

/-- The steps since a compilation was last begun, or all of them if none was. -/
def currentPass : List Step → List Step
  | [] => []
  | x :: later =>
    if later.any (·.action.beginsCompilation) then currentPass later else x :: later

section

variable (c : Context) (actions : List Action) (a : Action)

theorem after_append_singleton : c.after (actions ++ [a]) = (c.after actions).performed a := by
  rw [after, List.foldl_append]
  rfl

theorem history_append_singleton :
    c.history (actions ++ [a]) = c.history actions ++ [⟨c.after actions, a⟩] := by
  induction actions generalizing c with
  | nil => rfl
  | cons b actions ih => exact congrArg (⟨c, b⟩ :: ·) (ih (c.performed b))

end

theorem currentPass_append_singleton (steps : List Step) (x : Step) :
    currentPass (steps ++ [x]) =
      (if x.action.beginsCompilation then [] else currentPass steps) ++ [x] := by
  induction steps with
  | nil => simp [currentPass]
  | cons y steps ih =>
    rw [List.cons_append, currentPass, currentPass, List.any_append, ih]
    cases hx : x.action.beginsCompilation with
    | true => simp [hx]
    | false =>
      cases steps.any (·.action.beginsCompilation) with
      | true => simp [hx]
      | false => simp [hx]

variable {c : Context}

theorem outbox_after (h : c.pass.outbox = []) (actions : List Action) :
    (c.after actions).pass.outbox = [] := by
  induction actions generalizing c with
  | nil => exact h
  | cons a actions ih => exact ih (c.outbox_performed a)

end Context

namespace Workspace

/-- Whether a context at one place reports to a manager at another one that lists what it is told,
and what the list is. -/
structure Journaled (w : Workspace) (place : Nat) (c : Context) (i : Nat)
    (heard : List Delivery) : Prop where
  context : ∃ registry, w.contexts.at? place = some ⟨c, some i, registry⟩
  journal : w.managers.at? i = some (.journal heard)

variable {w : Workspace} {place i : Nat} {c : Context} {heard : List Delivery}

private theorem Journaled.step (h : w.Journaled place c i heard) (a : Action) :
    (w.step place a).Journaled place (c.performed a) i (heard ++ c.reports a) := by
  obtain ⟨⟨registry, hc⟩, hjournal⟩ := h
  refine ⟨⟨registry, at?_step_self hc a⟩, ?_⟩
  rw [manager_step hc rfl hjournal, Manager.foldl_receive_journal]

private theorem Journaled.after (h : w.Journaled place c i heard) (actions : List Action) :
    (w.after (actions.map (place, ·))).Journaled place (c.after actions) i
      (heard ++ (c.history actions).flatMap Context.Step.heard) := by
  induction actions generalizing w c heard with
  | nil => simpa [Workspace.after, Context.after, Context.history] using h
  | cons a actions ih =>
    have hlater := ih (h.step a)
    rwa [List.append_assoc] at hlater

end Workspace

end FormulaEngine

import FormulaEngine.Proofs.Delivery
import FormulaEngine.Proofs.Reporting
/-!
# Steps of a workspace

Something is done with one context after the other. A step changes the context that it is about and
what the manager of this context holds, whether it comes to its end or is stopped, and leaves all
other contexts. After each step everything has been reported.
-/
namespace FormulaEngine

namespace Shelf

variable {α : Type} {s : Shelf α} {place : Nat}

private theorem at?_put_self {a : α} (h : s.at? place = some a) (b : α) :
    (s.put place b).at? place = some b :=
  List.getElem?_set_self (List.getElem?_eq_some_iff.mp h).1

private theorem at?_put_of_ne {other : Nat} (h : place ≠ other) (b : α) :
    (s.put place b).at? other = s.at? other :=
  List.getElem?_set_ne h

end Shelf

/-- A context after an action, when all that was found out has been reported. -/
def Context.performed (c : Context) (a : Action) : Context :=
  (a.perform c).2.flush.2.2

/-- What the manager of a context is told when an action is performed. -/
def Context.reports (c : Context) (a : Action) : List Delivery :=
  (a.perform c).2.pass.outbox

namespace Context

variable (c : Context) (a : Action)

@[simp] theorem outbox_performed : (c.performed a).pass.outbox = [] := rfl

@[simp] theorem owner_performed : (c.performed a).setting.owner = c.setting.owner := by
  obtain ⟨_, heffect⟩ := a.exists_effect c
  exact heffect.owner

variable {c} in
/-- If nothing was left to report before, a context tells its manager of an action that the edges of
the owner are void, if a compilation begins, and of the edges that were registered. -/
theorem exists_reports_eq (h : c.pass.outbox = []) :
    ∃ ds : List Dependency, (∀ d ∈ ds, d.dependent = a.namedDependent?.or c.setting.owner) ∧
      c.reports a = a.voided c.setting ++ ds.map .register := by
  obtain ⟨ds, heffect⟩ := a.exists_effect c
  refine ⟨ds, ?_, ?_⟩
  · intro d hd
    obtain ⟨given, hgiven, hcompletes⟩ := heffect.registers d hd
    rw [hcompletes.dependent, hgiven.dependent]
  · rw [reports, heffect.outbox, h, List.nil_append]

end Context

namespace Manager

private theorem foldl_receive (r : Recorder) (xs : List Delivery) :
    xs.foldl receive (.recorder r) = .recorder (r.receiveAll xs) := by
  induction xs generalizing r with
  | nil => rfl
  | cons x xs ih => exact ih (r.receive x)

theorem foldl_receive_journal (heard xs : List Delivery) :
    xs.foldl receive (.journal heard) = .journal (heard ++ xs) := by
  induction xs generalizing heard with
  | nil => simp
  | cons x xs ih =>
    rw [List.foldl_cons, receive, ih, List.append_assoc]
    rfl

end Manager

namespace Workspace

/-- A workspace after something was done with the context at a place, to its end or not. -/
def step (w : Workspace) (place : Nat) (a : Action) : Workspace :=
  match performAt place a w with
  | .ok _ w' => w'
  | .error _ w' => w'

/-- A workspace after some steps, each of them at the place of a context. -/
def after (w : Workspace) (steps : List (Nat × Action)) : Workspace :=
  steps.foldl (fun w s => w.step s.1 s.2) w

theorem after_append_singleton (w : Workspace) (steps : List (Nat × Action)) (place : Nat)
    (a : Action) : w.after (steps ++ [(place, a)]) = (w.after steps).step place a := by
  simp [after]

/-- Whether every context has reported all that it found out. -/
def Settled (w : Workspace) : Prop :=
  ∀ place m, w.contexts.at? place = some m → m.context.pass.outbox = []

/-- Whether a context at one place reports to a recorder at another one, and has reported all. -/
structure Attached (w : Workspace) (place : Nat) (c : Context) (i : Nat) (r : Recorder) : Prop where
  context : ∃ registry, w.contexts.at? place = some ⟨c, some i, registry⟩
  recorder : w.managers.at? i = some (.recorder r)
  reported : c.pass.outbox = []

variable {w : Workspace} {place i : Nat} {m : Member} {c : Context} {r : Recorder}

theorem step_of_none (h : w.contexts.at? place = none) (a : Action) : w.step place a = w := by
  rw [step, performAt, h]

private theorem step_eq_settle (h : w.contexts.at? place = some m) (a : Action) :
    w.step place a = w.settle place { m with context := (a.perform m.context).2 } := by
  rw [step, performAt, h]
  dsimp only
  cases a.perform m.context with
  | mk outcome c => cases outcome <;> rfl

theorem contexts_step (h : w.contexts.at? place = some m) (a : Action) :
    (w.step place a).contexts =
      w.contexts.put place { m with context := m.context.performed a } := by
  rw [step_eq_settle h]
  rfl

theorem at?_step_self (h : w.contexts.at? place = some m) (a : Action) :
    (w.step place a).contexts.at? place = some { m with context := m.context.performed a } := by
  rw [contexts_step h]
  exact Shelf.at?_put_self h _

private theorem at?_step_of_ne {other : Nat} (hne : place ≠ other) (a : Action) :
    (w.step place a).contexts.at? other = w.contexts.at? other := by
  cases h : w.contexts.at? place with
  | none => rw [step_of_none h]
  | some m =>
    rw [contexts_step h]
    exact Shelf.at?_put_of_ne hne _

theorem managers_step_of_ne (h : w.contexts.at? place = some m) (hne : m.manager ≠ some i)
    (a : Action) : (w.step place a).managers.at? i = w.managers.at? i := by
  rw [step_eq_settle h, settle]
  dsimp only [Context.flush]
  cases hm : m.manager with
  | none => rfl
  | some j =>
    have hji : j ≠ i := by
      rintro rfl
      exact hne hm
    dsimp only
    cases w.managers.at? j with
    | none => rfl
    | some manager => exact Shelf.at?_put_of_ne hji _

theorem manager_step {manager : Manager} (h : w.contexts.at? place = some m)
    (hm : m.manager = some i) (hi : w.managers.at? i = some manager) (a : Action) :
    (w.step place a).managers.at? i =
      some ((m.context.reports a).foldl Manager.receive manager) := by
  rw [step_eq_settle h, settle]
  dsimp only [Context.flush]
  rw [hm]
  dsimp only
  rw [hi]
  exact Shelf.at?_put_self hi _

theorem recorder_step (h : w.contexts.at? place = some m) (hm : m.manager = some i)
    (hr : w.managers.at? i = some (.recorder r)) (a : Action) :
    (w.step place a).managers.at? i = some (.recorder (r.receiveAll (m.context.reports a))) := by
  rw [manager_step h hm hr, Manager.foldl_receive]

theorem Settled.step (h : w.Settled) (place : Nat) (a : Action) : (w.step place a).Settled := by
  intro other m' hm'
  cases hm : w.contexts.at? place with
  | none =>
    rw [step_of_none hm] at hm'
    exact h other m' hm'
  | some m =>
    by_cases hne : place = other
    · subst hne
      rw [at?_step_self hm] at hm'
      cases hm'
      rfl
    · rw [at?_step_of_ne hne] at hm'
      exact h other m' hm'

theorem Settled.after (h : w.Settled) (steps : List (Nat × Action)) : (w.after steps).Settled := by
  induction steps generalizing w with
  | nil => exact h
  | cons s steps ih => exact ih (h.step s.1 s.2)

theorem Attached.step (h : w.Attached place c i r) (a : Action) :
    (w.step place a).Attached place (c.performed a) i (r.receiveAll (c.reports a)) := by
  obtain ⟨⟨registry, hc⟩, hr, -⟩ := h
  exact ⟨⟨registry, at?_step_self hc a⟩, recorder_step hc rfl hr a, rfl⟩

theorem Attached.step_of_ne {other : Nat} {d : Context} (h : w.Attached place c i r)
    (hother : w.Attached other d i r) (hne : other ≠ place) (a : Action) :
    (w.step other a).Attached place c i (r.receiveAll (d.reports a)) := by
  obtain ⟨⟨registry, hc⟩, -, hreported⟩ := h
  exact ⟨⟨registry, (at?_step_of_ne hne a).trans hc⟩, (hother.step a).recorder, hreported⟩

end Workspace

end FormulaEngine

import FormulaEngine.Context.Pass
/-!
# Steps of a walk

What a sequence of steps answers, and what its steps do to a pass. A walk through a formula changes
a pass in one way only, as far as the formula goes: it notes dependencies and the opening of
aggregate calls, and closes every call that it opens.
-/
namespace FormulaEngine

section

variable {ε σ α β : Type} {x : EStateM ε σ α} {f : α → EStateM ε σ β} {s t : σ}

theorem bind_of_ok {a : α} (h : x s = .ok a t) : (x >>= f) s = f a t := by
  change EStateM.bind x f s = _
  rw [EStateM.bind, h]

theorem bind_of_error {e : ε} (h : x s = .error e t) : (x >>= f) s = .error e t := by
  change EStateM.bind x f s = _
  rw [EStateM.bind, h]

theorem bind_eq_ok_iff {b : β} :
    (x >>= f) s = .ok b t ↔ ∃ a u, x s = .ok a u ∧ f a u = .ok b t := by
  cases h : x s with
  | ok a u =>
    rw [bind_of_ok h]
    constructor
    · intro hf
      exact ⟨a, u, rfl, hf⟩
    · rintro ⟨a', u', he, hf⟩
      cases he
      exact hf
  | error e u =>
    rw [bind_of_error h]
    simp

theorem bind_eq_error_iff {e : ε} :
    (x >>= f) s = .error e t ↔ x s = .error e t ∨ ∃ a u, x s = .ok a u ∧ f a u = .error e t := by
  cases h : x s with
  | ok a u =>
    rw [bind_of_ok h]
    constructor
    · intro hf
      exact .inr ⟨a, u, rfl, hf⟩
    · rintro (he | ⟨a', u', he, hf⟩)
      · cases he
      · cases he
        exact hf
  | error e' u =>
    rw [bind_of_error h]
    simp

end

namespace Pass

/-- The pass with more dependencies found, in which an aggregate call may have been opened. -/
def note (p : Pass) (ds : List Dependency) (aggregate : Bool) : Pass :=
  { p with
    found := p.found ++ ds
    hasAggregates := p.hasAggregates || aggregate
    outbox := p.outbox ++ ds.map .register }

@[simp] theorem note_nil (p : Pass) : p.note [] false = p := by
  simp [note]

@[simp] theorem openCalls_note (p : Pass) (ds : List Dependency) (b : Bool) :
    (p.note ds b).openCalls = p.openCalls := rfl

@[simp] theorem draws_note (p : Pass) (ds : List Dependency) (b : Bool) :
    (p.note ds b).draws = p.draws := rfl

theorem note_note (p : Pass) (ds es : List Dependency) (a b : Bool) :
    (p.note ds a).note es b = p.note (ds ++ es) (a || b) := by
  simp [note, Bool.or_assoc]

private theorem register_eq_note (p : Pass) (d : Dependency) : p.register d = p.note [d] false := by
  simp [register, note]

theorem endCall_note_beginCall (p : Pass) (c : OpenCall) (ds : List Dependency) (b : Bool) :
    ((p.beginCall c).note ds b).endCall (some c.name) = p.note ds (c.isAggregate || b) := by
  simp [endCall, isInnermost, beginCall, note, Bool.or_assoc]

@[simp] theorem draws_endCall (p : Pass) (name : Option String) :
    (p.endCall name).draws = p.draws := by
  unfold endCall
  split <;> rfl

end Pass

namespace Walk

theorem lift_eq_ok {α : Type} {x : Except Fault α} {a : α} {p q : Pass}
    (h : lift x p = .ok a q) : x = .ok a := by
  cases x with
  | ok b =>
    cases h
    rfl
  | error f => cases h

theorem lift_eq_error {α : Type} {x : Except Fault α} {e : Fault} {p q : Pass}
    (h : lift x p = .error e q) : x = .error e := by
  cases x with
  | ok a => cases h
  | error f =>
    cases h
    rfl

theorem register_eq (s : Setting) (d : Dependency) (p : Pass) :
    register s d p = .ok (p.complete s d) (p.note [p.complete s d] false) := by
  rw [← Pass.register_eq_note]
  rfl

theorem inCall_eq_ok_iff {α : Type} {s : Setting} {name : String} {w : Walk α} {a : α}
    {p p' : Pass} :
    inCall s name w p = .ok a p' ↔
      ∃ q, w (p.beginCall ⟨name, s.isAggregate name⟩) = .ok a q ∧ p' = q.endCall (some name) := by
  unfold inCall
  cases h : w (p.beginCall ⟨name, s.isAggregate name⟩) with
  | ok b q =>
    simp only [EStateM.Result.ok.injEq]
    constructor
    · rintro ⟨rfl, rfl⟩
      exact ⟨q, ⟨rfl, rfl⟩, rfl⟩
    · rintro ⟨q', ⟨rfl, rfl⟩, rfl⟩
      exact ⟨rfl, rfl⟩
  | error e q => simp

end Walk

end FormulaEngine

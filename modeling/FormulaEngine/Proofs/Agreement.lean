import FormulaEngine.Proofs.ErrorFree
import FormulaEngine.Proofs.Footprint
/-!
# Compiled code and immediate evaluation

Compiled code carries an error along as a value and goes on, immediate evaluation stops at it. As
long as no value that comes in from outside is an error, both find the same values with the same
random numbers, and the same error comes out first. Otherwise an immediate evaluation may carry
errors too, and once it does, all that relates it to code is that neither of them loses its error.
-/
namespace FormulaEngine

theorem Run.lift_ok {α : Type} (a : α) : Run.lift (.ok a) = pure a := rfl

theorem Walk.lift_ok {α : Type} (a : α) : Walk.lift (.ok a) = pure a := rfl

/-- The terms on which a run and a walk are compared. -/
structure Terms where
  /-- Both raise the same errors. -/
  sharp : Prop
  /-- Errors may come in from outside as values. -/
  loose : Prop
  /-- It matters what a walk answers where the run is stopped. -/
  stops : Prop
  /-- Where the random numbers come from. -/
  source : Nat → Float
  not_sharp : loose → ¬sharp

namespace Terms

/-- No error comes in from outside. -/
def plain (source : Nat → Float) : Terms where
  sharp := False
  loose := False
  stops := True
  source := source
  not_sharp := False.elim

/-- No error comes in from outside, and both sides raise the same ones. -/
def exactly (source : Nat → Float) : Terms where
  sharp := True
  loose := False
  stops := True
  source := source
  not_sharp := False.elim

/-- Errors may come in from outside. -/
def carrying (source : Nat → Float) (stops : Prop) : Terms where
  sharp := False
  loose := True
  stops := stops
  source := source
  not_sharp := fun _ => id

end Terms

/-- How a walk answers to a run, where `err` tells which answers are errors. Where both stop and
must raise the same errors, the walk stops at the fault of the run or at an error before it. -/
inductive MeetsAt {α : Type} (t : Terms) (err : α → Option FormulaError) :
    EStateM.Result Fault Draws α → EStateM.Result Fault Pass α → Prop
  | value {a : α} {p : Pass} (h : err a = none) (hp : p.draws.source = t.source) :
      MeetsAt t err (.ok a p.draws) (.ok a p)
  | carried {a b : α} {d : Draws} {p : Pass} (ht : t.loose) (ha : (err a).isSome)
      (hb : (err b).isSome) : MeetsAt t err (.ok a d) (.ok b p)
  | raised {a : α} {e : FormulaError} {d : Draws} {f : Fault} {p : Pass} (h : err a = some e)
      (hf : t.sharp → f = .formula e) : MeetsAt t err (.ok a d) (.error f p)
  | outlived {f : Fault} {d : Draws} {b : α} {p : Pass} (ht : t.loose)
      (hb : t.stops → (err b).isSome) : MeetsAt t err (.error f d) (.ok b p)
  | stopped {f g : Fault} {d : Draws} {p : Pass}
      (hg : t.sharp → g = f ∨ ∃ e, g = .formula e) : MeetsAt t err (.error f d) (.error g p)

/-- A walk meets a run if it answers to it from the same random numbers on. -/
def Meets {α : Type} (t : Terms) (err : α → Option FormulaError) (x : Run α) (w : Walk α) : Prop :=
  ∀ p : Pass, p.draws.source = t.source → MeetsAt t err (x p.draws) (w p)

/-- Whether a computation can answer nothing but what has a property. -/
def Answers {σ α : Type} (P : α → Prop) (x : EStateM Fault σ α) : Prop :=
  ∀ a s s', x s = .ok a s' → P a

namespace Answers

variable {σ α β : Type} {P : α → Prop} {Q : β → Prop}

theorem pure {a : α} (h : P a) : Answers P (Pure.pure a : EStateM Fault σ α) := by
  intro b s s' hb
  cases hb
  exact h

theorem bind {x : EStateM Fault σ α} {f : α → EStateM Fault σ β} (h : ∀ a, Answers Q (f a)) :
    Answers Q (x >>= f) := by
  intro b s s' hb
  obtain ⟨a, u, -, hb⟩ := bind_eq_ok_iff.mp hb
  exact h a b u s' hb

theorem runLift {o : Except Fault α} (h : ∀ a, o = .ok a → P a) : Answers P (Run.lift o) :=
  fun a _ _ ha => h a (Run.lift_eq_ok ha)

theorem walkLift {o : Except Fault α} (h : ∀ a, o = .ok a → P a) : Answers P (Walk.lift o) :=
  fun a _ _ ha => h a (Walk.lift_eq_ok ha)

end Answers

namespace Meets

variable {α β : Type} {t : Terms} {err : α → Option FormulaError} {err' : β → Option FormulaError}
  {x : Run α} {w : Walk α} {f : α → Run β} {g : α → Walk β}

private theorem of_eq {a : α} {p : Pass} (h : ¬t.loose → err a = none)
    (hp : p.draws.source = t.source) : MeetsAt t err (.ok a p.draws) (.ok a p) := by
  cases ha : err a with
  | none => exact .value ha hp
  | some e =>
    have hloose : t.loose := by
      by_contra hstrict
      simp [h hstrict] at ha
    exact .carried hloose (by simp [ha]) (by simp [ha])

theorem pure {a : α} (h : ¬t.loose → err a = none) : Meets t err (Pure.pure a) (Pure.pure a) :=
  fun _ hp => of_eq h hp

theorem lift {o : Except Fault α} (h : ¬t.loose → ∀ a, o = .ok a → err a = none) :
    Meets t err (Run.lift o) (Walk.lift o) := by
  intro p hp
  cases o with
  | ok a => exact of_eq (fun hstrict => h hstrict a rfl) hp
  | error e => exact .stopped fun _ => .inl rfl

theorem ofRun_call {k : Callable} {args : List Value} {err : Value → Option FormulaError}
    (h : ¬t.loose → ∀ d v, (k.call args d).1 = .ok v → err v = none) :
    Meets t err (Run.call k args) (Walk.ofRun (Run.call k args)) := by
  intro p hp
  rw [Run.call_eq_lift, Walk.ofRun_call]
  cases hcall : (k.call args p.draws).1 with
  | ok v =>
    exact of_eq (p := { p with draws := p.draws.skip k.drawCount })
      (fun hstrict => h hstrict _ v hcall) hp
  | error e => exact .stopped fun _ => .inl rfl

theorem inCall (h : Meets t err x w) (s : Setting) (name : String) :
    Meets t err x (Walk.inCall s name w) := by
  intro p hp
  have hopened := h (p.beginCall ⟨name, s.isAggregate name⟩) hp
  change MeetsAt t err (x p.draws) _ at hopened
  unfold Walk.inCall
  generalize x p.draws = r at hopened ⊢
  generalize w (p.beginCall ⟨name, s.isAggregate name⟩) = r' at hopened ⊢
  cases hopened with
  | @value a q ha hq =>
    rw [← Pass.draws_endCall q (some name)]
    exact .value ha (by rwa [Pass.draws_endCall])
  | carried ht ha hb => exact .carried ht ha hb
  | raised ha hf => exact .raised ha hf
  | outlived ht hb => exact .outlived ht hb
  | stopped hg => exact .stopped hg

private theorem of_errors {y : Run β} {v : Walk β} (ht : t.loose)
    (hy : Answers (fun c => (err' c).isSome) y) (hv : Answers (fun c => (err' c).isSome) v)
    (d : Draws) (q : Pass) : MeetsAt t err' (y d) (v q) := by
  cases hyd : y d with
  | ok c d' =>
    have hc := hy c d d' hyd
    cases hvq : v q with
    | ok c' q' => exact .carried ht hc (hv c' q q' hvq)
    | error k q' =>
      obtain ⟨e, he⟩ := Option.isSome_iff_exists.mp hc
      exact .raised he fun hsharp => absurd hsharp (t.not_sharp ht)
  | error k d' =>
    cases hvq : v q with
    | ok c' q' => exact .outlived ht fun _ => hv c' q q' hvq
    | error k' q' => exact .stopped fun hsharp => absurd hsharp (t.not_sharp ht)

/-- Two sequences meet if their first parts do, their second parts do after a proper value, and an
error of the first part is lost on neither side. -/
theorem bind (h : Meets t err x w)
    (hvalue : ∀ a d d', x d = .ok a d' → err a = none → Meets t err' (f a) (g a))
    (hrun : ∀ a e, err a = some e → Answers (err' · = some e) (f a))
    (hwalk : t.loose → ∀ p q b, p.draws.source = t.source → w p = .ok b q → (err b).isSome →
      (¬t.stops → ∃ a d, x p.draws = .ok a d) → Answers (fun c => (err' c).isSome) (g b)) :
    Meets t err' (x >>= f) (w >>= g) := by
  intro p hp
  have hfirst := h p hp
  generalize hx : x p.draws = r at hfirst
  generalize hw : w p = r' at hfirst
  cases hfirst with
  | @value a q ha hq =>
    rw [bind_of_ok hx, bind_of_ok hw]
    exact hvalue a p.draws q.draws hx ha q hq
  | @carried a b d q ht ha hb =>
    rw [bind_of_ok hx, bind_of_ok hw]
    obtain ⟨e, he⟩ := Option.isSome_iff_exists.mp ha
    apply of_errors ht
    · intro c u u' hc
      simp [hrun a e he c u u' hc]
    · exact hwalk ht p q b hp hw hb fun _ => ⟨a, d, hx⟩
  | @raised a e d k q ha hk =>
    rw [bind_of_ok hx, bind_of_error hw]
    cases hfa : f a d with
    | ok c d' => exact .raised (hrun a e ha c d d' hfa) hk
    | error k' d' => exact .stopped fun hsharp => .inr ⟨e, hk hsharp⟩
  | @outlived k d b q ht hb =>
    rw [bind_of_error hx, bind_of_ok hw]
    cases hgb : g b q with
    | ok c q' =>
      refine .outlived ht fun hstops => ?_
      exact hwalk ht p q b hp hw (hb hstops) (fun hnot => absurd hstops hnot) c q q' hgb
    | error k' q' => exact .stopped fun hsharp => absurd hsharp (t.not_sharp ht)
  | stopped hk =>
    rw [bind_of_error hx, bind_of_error hw]
    exact .stopped hk

end Meets

end FormulaEngine

import FormulaEngine.Context.Setting
import FormulaEngine.Proofs.Operator
/-!
# Results that are no errors

Built-in and elementary functions never answer an error as a value, whatever their arguments are.
Operators answer one only if an operand is one.
-/
namespace FormulaEngine

theorem Value.error?_eq_none_iff {v : Value} : v.error? = none ↔ v.isError = false := by
  cases v <;> simp [error?, isError]

theorem Value.error?_eq_some_iff {v : Value} {e : FormulaError} :
    v.error? = some e ↔ v = .error e := by
  cases v <;> simp [error?]

section

variable {ε α : Type}

/-- Whether a result is no error as a value; it may well be no value at all. -/
def ErrorFree (x : Except ε Value) : Prop :=
  ∀ v, x = .ok v → v.isError = false

theorem errorFree_ok {v : Value} (h : v.isError = false) : ErrorFree (.ok v : Except ε Value) := by
  intro w hw
  cases hw
  exact h

private theorem errorFree_bind {x : Except ε α} {f : α → Except ε Value}
    (h : ∀ a, ErrorFree (f a)) : ErrorFree (x >>= f) := by
  intro v hv
  cases x with
  | ok a => exact h a v hv
  | error t => cases hv

private theorem errorFree_map {x : Except ε α} {f : α → Value}
    (h : ∀ a, (f a).isError = false) : ErrorFree (x.map f) := by
  intro v hv
  cases x with
  | ok a =>
    cases hv
    exact h a
  | error t => cases hv

private theorem errorFree_ofTrap {x : Except Trap Value} (h : ErrorFree x) :
    ErrorFree (Fault.ofTrap x) :=
  fun v hv => h v (Fault.ofTrap_eq_ok hv)

end

namespace Builtin

private theorem errorFree_between (draw : Float) (args : List Value) :
    ErrorFree (between draw args) := by
  unfold between
  split
  · exact errorFree_ok rfl
  · exact errorFree_bind fun x => errorFree_ok rfl
  · exact errorFree_bind fun x => errorFree_bind fun y => errorFree_ok rfl

private theorem errorFree_monthOf (v : Value) : ErrorFree (monthOf v) := by
  have hname (t : Option Date) :
      ((t.map fun t => Value.text t.monthName).getD .null).isError = false := by
    cases t <;> rfl
  unfold monthOf
  dsimp only
  split
  · exact errorFree_ok (hname _)
  · exact errorFree_ok (hname _)
  · exact errorFree_ok (hname _)
  · apply errorFree_bind
    intro finite
    cases finite with
    | true => exact errorFree_bind fun x => errorFree_ok (hname _)
    | false => exact errorFree_ok rfl

private theorem errorFree_callable (f : Builtin) (args : List Value) (d : Draws) :
    ErrorFree (f.callable.call args d).1 := by
  cases f with
  | boolean => exact errorFree_ofTrap (errorFree_bind fun b => errorFree_ok rfl)
  | isFinite => exact errorFree_ofTrap (errorFree_bind fun b => errorFree_ok rfl)
  | random => exact errorFree_ofTrap (errorFree_between d.next args)
  | round =>
    apply errorFree_ofTrap
    apply errorFree_bind
    intro x
    split
    · exact errorFree_ok rfl
    · exact errorFree_ok rfl
  | string => exact errorFree_ofTrap (errorFree_bind fun s => errorFree_ok rfl)
  | greatCircleDistance =>
    apply errorFree_ofTrap
    exact errorFree_bind fun lat₁ => errorFree_bind fun long₁ => errorFree_bind fun lat₂ =>
      errorFree_bind fun long₂ => errorFree_bind fun x => errorFree_ok rfl
  | secondsToDate => exact errorFree_ofTrap (errorFree_ok rfl)
  | month => exact errorFree_ofTrap (errorFree_monthOf _)
  | _ => exact errorFree_ofTrap (errorFree_bind fun x => errorFree_ok rfl)

end Builtin

namespace MathFunction

private theorem errorFree_callable (f : MathFunction) (args : List Value) (d : Draws) :
    ErrorFree (f.callable.call args d).1 := by
  have hunary (g : Float → Float) : ErrorFree (unary g args) :=
    errorFree_bind fun x => errorFree_ok rfl
  have hbinary (g : Float → Float → Float) : ErrorFree (binary g args) :=
    errorFree_bind fun x => errorFree_bind fun y => errorFree_ok rfl
  cases f with
  | atan2 => exact errorFree_ofTrap (hbinary _)
  | pow => exact errorFree_ofTrap (hbinary _)
  | _ => exact errorFree_ofTrap (hunary _)

end MathFunction

private theorem Value.errorFree_join (v w : Value) : ErrorFree (v.join w) :=
  errorFree_bind fun _ => errorFree_bind fun _ => errorFree_ok rfl

private theorem Arithmetic.errorFree_onValues (op : Arithmetic) (v w : Value) :
    ErrorFree (op.onValues v w) := by
  unfold onValues
  split
  · exact v.errorFree_join w
  · exact errorFree_map fun x => rfl

private theorem Comparison.errorFree_onValues (op : Comparison) (v w : Value) :
    ErrorFree (op.onValues v w) := by
  unfold onValues
  split
  · exact errorFree_ok rfl
  · exact errorFree_map fun x => rfl

private theorem Logical.errorFree_onValues (op : Logical) {v w : Value} (hv : v.isError = false)
    (hw : w.isError = false) : ErrorFree (op.onValues v w) := by
  apply errorFree_map
  intro b
  split
  · exact hv
  · exact hw

private theorem BinaryOperator.errorFree_onValues (op : BinaryOperator) {v w : Value}
    (hv : v.isError = false) (hw : w.isError = false) : ErrorFree (op.onValues v w) := by
  cases op with
  | arithmetic op => exact op.errorFree_onValues v w
  | concatenate => exact v.errorFree_join w
  | comparison op => exact op.errorFree_onValues v w
  | logical op => exact op.errorFree_onValues hv hw

private theorem UnaryOperator.errorFree_onValue (op : UnaryOperator) (v : Value) :
    ErrorFree (op.onValue v) := by
  cases op <;> exact errorFree_map fun x => rfl

theorem applyUnary_isError {op : String} {v w : Value} (hv : v.isError = false)
    (h : applyUnary op v = .ok w) : w.isError = false := by
  unfold applyUnary at h
  split at h
  · cases hv
  · split at h
    next o ho => exact o.errorFree_onValue v w (Fault.ofTrap_eq_ok h)
    next => cases h

theorem applyBinary_isError {op : String} {v w r : Value} (hv : v.isError = false)
    (hw : w.isError = false) (h : applyBinary op v w = .ok r) : r.isError = false := by
  unfold applyBinary at h
  split at h
  next e he =>
    have hnone : Value.firstError? [v, w] = none := by
      simp [Value.firstError?_eq_none_iff, hv, hw]
    rw [hnone] at he
    cases he
  next =>
    split at h
    next o ho => exact o.errorFree_onValues hv hw r (Fault.ofTrap_eq_ok h)
    next => split at h <;> cases h

theorem applyOperator_of_firstError? {op : String} {vs : List Value} {e : FormulaError} {v : Value}
    (he : Value.firstError? vs = some e) (h : applyOperator op vs = .ok v) : v = .error e := by
  unfold applyOperator at h
  split at h
  next w =>
    rw [Value.firstError?_cons, Value.firstError?_nil, Option.or_none,
      Value.error?_eq_some_iff] at he
    rw [he, applyUnary_error] at h
    cases h
    rfl
  next w z =>
    rw [applyBinary, he] at h
    cases h
    rfl
  next => cases h

theorem constant?_isError {name : String} {v : Value} (h : constant? name = some v) :
    v.isError = false := by
  obtain ⟨x, -, rfl⟩ := Option.map_eq_some_iff.mp h
  rfl

namespace Setting

/-- Whether no value that a context or an environment supplies is an error, nor any result of a
client function on values that are none. -/
structure HoldsNoError (s : Setting) (env : Scope) : Prop where
  own : ∀ name v, s.instanceVariables.value? name = some v → v.isError = false
  environment : ∀ name v, env.value? name = some v → v.isError = false
  client : ∀ name f, s.functions.get? name = some (.function f) →
    ∀ args, (∀ a ∈ args, a.isError = false) → ErrorFree (f args)

variable {s : Setting} {env : Scope}

theorem errorFree_of_resolve? {name : String} {lib : Library} {f : Callable}
    (h : s.HoldsNoError env) (hf : s.resolve? name = some (lib, f)) {args : List Value}
    (hargs : ∀ a ∈ args, a.isError = false) (d : Draws) : ErrorFree (f.call args d).1 := by
  obtain ⟨hlib, hfun⟩ := function?_of_resolve? hf
  rw [hlib] at hfun
  cases hscope : lib.scope with
  | builtin =>
    rw [hscope] at hfun
    obtain ⟨g, -, rfl⟩ := Option.map_eq_some_iff.mp hfun
    exact g.errorFree_callable args d
  | math =>
    rw [hscope] at hfun
    obtain ⟨g, -, rfl⟩ := Option.map_eq_some_iff.mp hfun
    exact g.errorFree_callable args d
  | client =>
    rw [hscope] at hfun
    obtain ⟨entry, hentry, hcall⟩ := Option.bind_eq_some_iff.mp hfun
    cases entry with
    | function g =>
      cases hcall
      exact h.client name g hentry args hargs
    | value v => cases hcall

end Setting

end FormulaEngine

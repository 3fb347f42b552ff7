import FormulaEngine.Context
import FormulaEngine.Proofs.Operator
import FormulaEngine.Proofs.Walk
/-!
# Running code

How a run of code goes on after each of its parts, and what stops it. What a sequence of codes does
is told by what each of them does.
-/
namespace FormulaEngine

theorem Run.lift_eq_error {α : Type} {x : Except Fault α} {f : Fault} {d d' : Draws}
    (h : Run.lift x d = .error f d') : x = .error f := by
  cases x with
  | ok a => cases h
  | error g =>
    cases h
    rfl

theorem Run.lift_eq_ok {α : Type} {x : Except Fault α} {a : α} {d d' : Draws}
    (h : Run.lift x d = .ok a d') : x = .ok a := by
  cases x with
  | ok b =>
    cases h
    rfl
  | error f => cases h

theorem callNamed_of_firstError? {args : List Value} {e : FormulaError}
    (h : Value.firstError? args = some e) (lib : Library) (name : String) :
    callNamed lib name args = pure (.error e) := by
  rw [callNamed, h]

theorem callNamed_of_function? {lib : Library} {name : String} {args : List Value} {f : Callable}
    (h : Value.firstError? args = none) (hf : lib.function? name = some f) :
    callNamed lib name args = Run.call f args := by
  rw [callNamed, h, hf]

theorem Run.call_eq_error {f : Callable} {args : List Value} {d d' : Draws} {g : Fault}
    (h : Run.call f args d = .error g d') : (f.call args d).1 = .error g := by
  unfold Run.call at h
  split at h
  next => cases h
  next heq =>
    cases h
    rw [heq]

namespace Code

@[elab_as_elim, induction_eliminator]
theorem induct {motive : Code → Prop}
    (constant : ∀ v, motive (.constant v))
    (read : ∀ scope name, motive (.read scope name))
    (call : ∀ scope name args, (∀ a ∈ args, motive a) → motive (.call scope name args))
    (operation : ∀ op operands, (∀ a ∈ operands, motive a) → motive (.operation op operands))
    (deferred : ∀ e, motive (.deferred e)) :
    ∀ c, motive c
  | .constant v => constant v
  | .read scope name => read scope name
  | .call scope name args =>
    call scope name args fun a _ => induct constant read call operation deferred a
  | .operation op operands =>
    operation op operands fun a _ => induct constant read call operation deferred a
  | .deferred e => deferred e

variable {s : Setting} {env : Scope}

theorem run_of_strict {op : String} (h : Logical.ofSymbol? op = none) (cs : List Code) :
    run s env (.operation op cs) =
      runAll s env cs >>= fun vs => Run.lift (applyOperator op vs) := by
  rw [run, h]

theorem run_unary {op : String} (h : Logical.ofSymbol? op = none) (a : Code) :
    run s env (.operation op [a]) =
      run s env a >>= fun v => Run.lift (applyOperator op [v]) := by
  rw [run_of_strict h]
  simp only [runAll, bind_assoc, pure_bind]

theorem run_binary_of_strict {op : String} (h : Logical.ofSymbol? op = none) (a b : Code) :
    run s env (.operation op [a, b]) =
      run s env a >>= fun v => run s env b >>= fun w => Run.lift (applyOperator op [v, w]) := by
  rw [run_of_strict h]
  simp only [runAll, bind_assoc, pure_bind]

theorem run_of_logical {op : String} {l : Logical} (h : Logical.ofSymbol? op = some l)
    (a b : Code) :
    run s env (.operation op [a, b]) =
      run s env a >>= fun v =>
        if v.isError then pure v
        else Run.lift (Fault.ofTrap v.truth) >>= fun t =>
          if t = l.deciding then pure v else run s env b := by
  rw [run, h]

section

variable {s' : Setting} {env' : Scope} {α : Type} {es : List α} {f g : α → Code}

theorem runAll_map_congr (h : ∀ e ∈ es, run s env (f e) = run s' env' (g e)) :
    runAll s env (es.map f) = runAll s' env' (es.map g) := by
  induction es with
  | nil => rfl
  | cons e es ih =>
    rw [List.map_cons, List.map_cons, runAll, runAll, h e (by simp),
      ih fun x hx => h x (by simp [hx])]

theorem run_operation_congr (op : String) (h : ∀ e ∈ es, run s env (f e) = run s' env' (g e)) :
    run s env (.operation op (es.map f)) = run s' env' (.operation op (es.map g)) := by
  cases hop : Logical.ofSymbol? op with
  | none => rw [run_of_strict hop, run_of_strict hop, runAll_map_congr h]
  | some l =>
    rw [run, run, hop]
    cases es with
    | nil => rfl
    | cons a rest =>
      cases rest with
      | nil => simp only [List.map_cons, List.map_nil, h a (by simp)]
      | cons b rest => simp only [List.map_cons, h a (by simp), h b (by simp)]

end

theorem length_of_runAll {cs : List Code} {vs : List Value} {d d' : Draws}
    (h : runAll s env cs d = .ok vs d') : vs.length = cs.length := by
  induction cs generalizing vs d with
  | nil =>
    cases h
    rfl
  | cons c cs ih =>
    rw [runAll] at h
    obtain ⟨v, u, -, h⟩ := bind_eq_ok_iff.mp h
    obtain ⟨ws, u', hws, h⟩ := bind_eq_ok_iff.mp h
    cases h
    simp [ih hws]

theorem run_of_runAll_eq_error {cs : List Code} {f : Fault} {d d' : Draws}
    (h : runAll s env cs d = .error f d') : ∃ c ∈ cs, ∃ u u', run s env c u = .error f u' := by
  induction cs generalizing d with
  | nil => cases h
  | cons c cs ih =>
    rw [runAll] at h
    rcases bind_eq_error_iff.mp h with h | ⟨v, u, -, h⟩
    · exact ⟨c, by simp, d, d', h⟩
    · rcases bind_eq_error_iff.mp h with h | ⟨vs, u', -, h⟩
      · obtain ⟨x, hx, hrun⟩ := ih h
        exact ⟨x, by simp [hx], hrun⟩
      · cases h

end Code

namespace Context

theorem run_of_lift {r : Context} {code : Code} {env : Scope} {o : Except Fault Value} {d : Draws}
    (h : code.run r.setting env r.pass.draws = Run.lift o d) :
    r.run code env = (o, { r with pass := { r.pass with draws := d } }) := by
  cases o with
  | ok v => simp only [run, walk, Walk.ofRun, h, Run.lift]
  | error f => simp only [run, walk, Walk.ofRun, h, Run.lift]

theorem demand_of_lift {r : Context} {code : Code} {env : Scope} {o : Except Fault Value}
    {d : Draws} (h : code.run r.setting env r.pass.draws = Run.lift o d) :
    r.demand code env = (o.bind Value.demand, { r with pass := { r.pass with draws := d } }) := by
  rw [demand, run_of_lift h]

theorem demand_fst (r : Context) (code : Code) (env : Scope) :
    (r.demand code env).1 = (r.run code env).1.bind Value.demand := rfl

theorem exists_run_eq_lift (r : Context) (code : Code) (env : Scope) :
    ∃ o d, code.run r.setting env r.pass.draws = Run.lift o d := by
  cases h : code.run r.setting env r.pass.draws with
  | ok v d => exact ⟨.ok v, d, rfl⟩
  | error f d => exact ⟨.error f, d, rfl⟩

end Context

end FormulaEngine

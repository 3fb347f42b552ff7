import FormulaEngine.Context
import FormulaEngine.Proofs.Calls
/-!
# The footprint of an immediate evaluation

An immediate evaluation opens and closes calls, notes that random functions depend on randomness and
draws random numbers. What it may note is told by the expression and the calls that are open around
it. It notes these dependencies in their order and draws at most one number for each that it notes.
-/
namespace FormulaEngine

namespace Draws

def skip (d : Draws) (n : Nat) : Draws :=
  { d with taken := d.taken + n }

@[simp] theorem skip_zero (d : Draws) : d.skip 0 = d := rfl

theorem skip_skip (d : Draws) (m n : Nat) : (d.skip m).skip n = d.skip (m + n) := by
  simp [skip, Nat.add_assoc]

end Draws

private theorem Callable.call_eq (f : Callable) (args : List Value) (d : Draws) :
    f.call args d = ((f.call args d).1, d.skip f.drawCount) := by
  cases f <;> rfl

theorem Run.call_eq_lift (f : Callable) (args : List Value) (d : Draws) :
    Run.call f args d = lift (f.call args d).1 (d.skip f.drawCount) := by
  rw [Run.call, f.call_eq]
  cases (f.call args d).1 <;> rfl

theorem Pass.endCall_of_openCalls {p : Pass} {c : OpenCall} {calls : List OpenCall}
    (h : p.openCalls = c :: calls) : p.endCall (some c.name) = { p with openCalls := calls } := by
  simp [endCall, isInnermost, h]

namespace Walk

variable {α : Type} {w : Walk α}

theorem decides_of_strict {op : String} {o : BinaryOperator}
    (h : Logical.ofSymbol? op = none) (ho : BinaryOperator.ofSymbol? op = some o) (v : Value) :
    decides o v = .ok false := by
  cases o with
  | logical l =>
    rw [BinaryOperator.ofSymbol?, h] at ho
    dsimp only at ho
    split at ho
    · cases ho
    · split at ho
      · cases ho
      · obtain ⟨a, -, ha⟩ := Option.map_eq_some_iff.mp ho
        cases ha
  | _ => rfl

theorem ofRun_call (f : Callable) (args : List Value) (p : Pass) :
    ofRun (Run.call f args) p =
      lift (f.call args p.draws).1 { p with draws := p.draws.skip f.drawCount } := by
  rw [ofRun, Run.call_eq_lift]
  cases (f.call args p.draws).1 <;> rfl

theorem inCall_of_lift {s : Setting} {name : String} {p : Pass} {o : Except Fault α}
    {ds : List Dependency} {b : Bool} {draws : Draws}
    (h : w (p.beginCall ⟨name, s.isAggregate name⟩) =
      lift o { (p.beginCall ⟨name, s.isAggregate name⟩).note ds b with draws := draws }) :
    inCall s name w p = lift o { p.note ds (s.isAggregate name || b) with draws := draws } := by
  have hend : ({ (p.beginCall ⟨name, s.isAggregate name⟩).note ds b with draws := draws } :
      Pass).endCall (some name) = { p.note ds (s.isAggregate name || b) with draws := draws } := by
    simp [Pass.endCall, Pass.isInnermost, Pass.beginCall, Pass.note, Bool.or_assoc]
  rw [inCall, h, ← hend]
  cases o <;> rfl

end Walk

/-- The dependency on randomness that is noted inside some open calls. -/
def Setting.randomUnder (s : Setting) (calls : List OpenCall) : Dependency where
  independent := .random
  dependent := s.owner
  aggregates := some ((Pass.aggregatePositions calls).map Int.ofNat)
  context := some s.label

private theorem Pass.complete_random (p : Pass) (s : Setting) :
    p.complete s (.on .random) = s.randomUnder p.openCalls := rfl

theorem Setting.randomUnder_openCalls (s : Setting) (path : List String) :
    s.randomUnder (s.openCalls path) = s.dependencyOn path .random := by
  rw [randomUnder, aggregatePositions_openCalls]
  rfl

namespace Expression

mutual

/-- The dependencies on randomness of an expression that stands inside some open calls, the
innermost one first. -/
def randoms (s : Setting) (calls : List OpenCall) : Expression → List Dependency
  | .literal _ => []
  | .identifier _ => []
  | .call name args =>
    randomsAll s (⟨name, s.isAggregate name⟩ :: calls) args ++
      if s.callsRandom name then [s.randomUnder calls] else []
  | .unary _ x => randoms s calls x
  | .binary _ l r => randoms s calls l ++ randoms s calls r
  | .foreign _ => []

def randomsAll (s : Setting) (calls : List OpenCall) : List Expression → List Dependency
  | [] => []
  | e :: es => randoms s calls e ++ randomsAll s calls es

end

variable {s : Setting} {d : Dependency}

private theorem mem_randomsAll {calls : List OpenCall} {es : List Expression}
    (h : d ∈ randomsAll s calls es) : ∃ e ∈ es, d ∈ e.randoms s calls := by
  induction es with
  | nil => simp [randomsAll] at h
  | cons e es ih =>
    rcases List.mem_append.mp h with h | h
    · exact ⟨e, by simp, h⟩
    · obtain ⟨x, hx, h⟩ := ih h
      exact ⟨x, by simp [hx], h⟩

theorem exists_of_mem_randoms {e : Expression} {calls : List OpenCall}
    (h : d ∈ e.randoms s calls) : ∃ calls', d = s.randomUnder calls' := by
  induction e generalizing calls with
  | literal v => simp [randoms] at h
  | identifier name => simp [randoms] at h
  | call name args ih =>
    rcases List.mem_append.mp h with h | h
    · obtain ⟨a, ha, h⟩ := mem_randomsAll h
      exact ih a ha h
    · split at h
      · exact ⟨calls, List.mem_singleton.mp h⟩
      · simp at h
  | unary op x ih => exact ih h
  | binary op l r ihl ihr =>
    rcases List.mem_append.mp h with h | h
    · exact ihl h
    · exact ihr h
  | foreign v => simp [randoms] at h

/-- Whether a node is an operator that may leave its second operand unevaluated. -/
def isLogical : Expression → Bool
  | .binary op _ _ => (Logical.ofSymbol? op).isSome
  | _ => false

end Expression

namespace Walk

variable {α β : Type} {full : Prop} {ds es : List OpenCall → List Dependency} {w : Walk α}
  {f : α → Walk β} {s : Setting} {env : Scope}

/-- Whether a walk, however it ends, notes no more than the dependencies that the open calls tell,
in their order, draws at most one random number for each that it notes, and changes nothing else for
good. Under the condition `full` it notes all of them unless it is stopped. -/
def Leaves (full : Prop) (ds : List OpenCall → List Dependency) (w : Walk α) : Prop :=
  ∀ p : Pass, ∃ o new b, ∃ k ≤ new.length,
    w p = lift o { p.note new b with draws := p.draws.skip k } ∧
      new.Sublist (ds p.openCalls) ∧ (full → ∀ a, o = .ok a → new = ds p.openCalls)

private theorem leaves_lift (o : Except Fault α)
    (h : full → ∀ a, o = .ok a → ∀ calls, ds calls = []) : Leaves full ds (lift o) := by
  intro p
  refine ⟨o, [], false, 0, Nat.le_refl 0, ?_, List.nil_sublist _, ?_⟩
  · simp
  · intro hfull a ha
    rw [h hfull a ha]

private theorem leaves_pure (a : α) : Leaves full (fun _ => []) (pure a) :=
  leaves_lift (.ok a) fun _ _ _ _ => rfl

private theorem leaves_throw (e : Fault) : Leaves full ds (throw e : Walk α) :=
  leaves_lift (.error e) fun _ _ h => nomatch h

private theorem Leaves.bind (hw : Leaves full ds w) (hf : ∀ a, Leaves full es (f a)) :
    Leaves full (fun calls => ds calls ++ es calls) (w >>= f) := by
  intro p
  obtain ⟨o, new, b, k, hk, hwp, hsub, hfull⟩ := hw p
  cases o with
  | error e =>
    refine ⟨.error e, new, b, k, hk, bind_of_error hwp, ?_, fun _ _ h => nomatch h⟩
    exact hsub.trans (List.sublist_append_left _ _)
  | ok a =>
    obtain ⟨o, new', b', k', hk', hfp, hsub', hfull'⟩ :=
      hf a { p.note new b with draws := p.draws.skip k }
    refine ⟨o, new ++ new', b || b', k + k', ?_, ?_, hsub.append hsub', ?_⟩
    · rw [List.length_append]
      omega
    · rw [bind_of_ok hwp, hfp]
      simp [Pass.note, Bool.or_assoc, Draws.skip_skip]
    · intro h c hc
      rw [hfull h a rfl, hfull' h c hc]
      rfl

private theorem Leaves.bind_nil (hw : Leaves full ds w)
    (hf : ∀ a, Leaves full (fun _ => []) (f a)) : Leaves full ds (w >>= f) := by
  simpa only [List.append_nil] using hw.bind hf

private theorem Leaves.nil_bind (hw : Leaves full (fun _ => []) w)
    (hf : ∀ a, Leaves full ds (f a)) : Leaves full ds (w >>= f) :=
  hw.bind hf

private theorem Leaves.inCall (hw : Leaves full ds w) (name : String) :
    Leaves full (fun calls => ds (⟨name, s.isAggregate name⟩ :: calls)) (inCall s name w) := by
  intro p
  obtain ⟨o, new, b, k, hk, hwp, hsub, hfull⟩ := hw (p.beginCall ⟨name, s.isAggregate name⟩)
  exact ⟨o, new, s.isAggregate name || b, k, hk, inCall_of_lift hwp, hsub, hfull⟩

private theorem leaves_evaluateVariable (name : String) :
    Leaves full (fun _ => []) (evaluateVariable s env name) := by
  unfold evaluateVariable
  split
  · exact leaves_pure _
  · exact leaves_throw _

private theorem leaves_evaluateFunction (name : String) (args : List Value) :
    Leaves full (fun calls => if s.callsRandom name then [s.randomUnder calls] else [])
      (evaluateFunction s name args none) := by
  have hstop (e : Fault) :
      Leaves full (fun calls => if s.callsRandom name then [s.randomUnder calls] else [])
        (throw e : Walk Value) := leaves_throw e
  intro p
  rw [evaluateFunction_eq]
  cases h : s.resolve? name with
  | none => exact hstop _ p
  | some r =>
    obtain ⟨lib, f⟩ := r
    have hrandom : s.callsRandom name = lib.isRandom name := by rw [Setting.callsRandom, h]
    dsimp only
    cases s.argumentFault? lib name args.length with
    | some e => exact hstop e p
    | none =>
      dsimp only
      rw [ofRun_call, Pass.complete_random, hrandom]
      refine ⟨_, _, false, f.drawCount, ?_, rfl, List.Sublist.refl _, fun _ _ _ => rfl⟩
      refine Nat.le_trans (Setting.drawCount_le_of_resolve? h) ?_
      split <;> simp

private theorem leaves_evaluateAll {xs : List Expression}
    (ih : ∀ x ∈ xs, Leaves full (fun calls => x.randoms s calls) (evaluate s env x)) :
    Leaves full (fun calls => Expression.randomsAll s calls xs) (evaluateAll s env xs) := by
  induction xs with
  | nil =>
    rw [evaluateAll]
    exact leaves_pure []
  | cons x xs ihs =>
    have htail := ihs fun y hy => ih y (by simp [hy])
    rw [evaluateAll]
    exact (ih x (by simp)).bind fun v => htail.bind_nil fun vs => leaves_pure _

/-- A walk of evaluation leaves what the dependencies on randomness of the expression are, and all
of them if it comes to a value and no operator is logical. -/
private theorem leaves_evaluate {e : Expression}
    (hfull : full → ∀ x ∈ e.nodes, x.isLogical = false) :
    Leaves full (fun calls => e.randoms s calls) (evaluate s env e) := by
  induction e with
  | literal v =>
    rw [evaluate]
    exact leaves_pure v
  | identifier name =>
    rw [evaluate]
    exact leaves_evaluateVariable name
  | call name args ih =>
    have hargs : ∀ a ∈ args, Leaves full (fun calls => a.randoms s calls) (evaluate s env a) :=
      fun a ha => ih a ha fun h => (Expression.forall_nodes_call.mp (hfull h)).2 a ha
    rw [evaluate]
    exact ((leaves_evaluateAll hargs).inCall name).bind fun vs => leaves_evaluateFunction name vs
  | unary op x ih =>
    have hx := ih fun h => (Expression.forall_nodes_unary.mp (hfull h)).2
    rw [evaluate]
    split
    · exact leaves_throw _
    · exact hx.bind_nil fun v => leaves_lift _ fun _ _ _ _ => rfl
  | binary op l r ihl ihr =>
    have hl := ihl fun h => (Expression.forall_nodes_binary.mp (hfull h)).2.1
    have hr := ihr fun h => (Expression.forall_nodes_binary.mp (hfull h)).2.2
    rw [evaluate]
    cases ho : BinaryOperator.ofSymbol? op with
    | none => exact leaves_throw _
    | some o =>
      dsimp only
      refine hl.bind fun v => ?_
      cases hop : Logical.ofSymbol? op with
      | none =>
        rw [decides_of_strict hop ho]
        exact hr.bind_nil fun w => leaves_lift _ fun _ _ _ _ => rfl
      | some logical =>
        have hpart : ¬full := by
          intro h
          have hstrict := (Expression.forall_nodes_binary.mp (hfull h)).1
          simp [Expression.isLogical, hop] at hstrict
        refine Leaves.nil_bind (leaves_lift _ fun _ _ _ _ => rfl) fun decided => ?_
        split
        · exact leaves_lift (.ok v) fun h => absurd h hpart
        · exact hr.bind_nil fun w => leaves_lift _ fun _ _ _ _ => rfl
  | foreign v =>
    rw [evaluate]
    exact leaves_throw _

end Walk

namespace Context

theorem evaluate_of_lift {d : Context} {e : Expression} {env : Scope} {o : Except Fault Value}
    {p : Pass} (h : Walk.evaluate d.setting env e { d.pass with found := [] } = Walk.lift o p) :
    d.evaluate e env = (o, d.afterEvaluation p) := by
  rw [evaluate, h]
  cases o <;> rfl

/-- An evaluation keeps what it has found, lets the manager know of it and draws random numbers. It
changes nothing else. -/
theorem exists_evaluate_eq (c : Context) (e : Expression) (env : Scope) :
    ∃ o ds, ∃ k ≤ ds.length,
      c.evaluate e env = (o, { c with
        evaluated := ds
        pass := { c.pass with
          draws := c.pass.draws.skip k
          outbox := c.pass.outbox ++ ds.map .register } }) ∧
      ds.Sublist (e.randoms c.setting c.pass.openCalls) ∧
      ((∀ x ∈ e.nodes, x.isLogical = false) → ∀ v, o = .ok v →
        ds = e.randoms c.setting c.pass.openCalls) := by
  have hleaves : Walk.Leaves (∀ x ∈ e.nodes, x.isLogical = false)
      (fun calls => e.randoms c.setting calls) (Walk.evaluate c.setting env e) :=
    Walk.leaves_evaluate id
  obtain ⟨o, ds, b, k, hk, hwalk, hsub, hfull⟩ := hleaves { c.pass with found := [] }
  exact ⟨o, ds, k, hk, evaluate_of_lift hwalk, hsub, hfull⟩

end Context

end FormulaEngine

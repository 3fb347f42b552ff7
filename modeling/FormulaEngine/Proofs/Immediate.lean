import FormulaEngine.Context
import FormulaEngine.Proofs.Agreement
/-!
# Compiled code and immediate evaluation

The two ways to a value of a formula. They meet on every formula as long as the environment supplies
exactly the names that are declared and no value that comes in from outside is an error. Where code
answers an error, immediate evaluation stops, and at the same error unless it looked into the
arguments of a function that nobody knows: code has dropped these.
-/
namespace FormulaEngine

namespace Setting

/-- Whether an expression can be compared in an environment: no error comes in from outside, and the
environment supplies just those names of the expression that are declared. -/
structure Comparable (s : Setting) (env : Scope) (e : Expression) : Prop
    extends s.HoldsNoError env where
  literals : ∀ v, .literal v ∈ e.nodes → v.isError = false
  supplied : ∀ name, .identifier name ∈ e.nodes → constant? name = none →
    (name ∈ s.declared ↔ (env.value? name).isSome)

/-- Whether an immediate evaluation comes to an error for an argument of a known function, with
random numbers from a source, and code does so too unless it may be stopped there and is. -/
def TakesError (s : Setting) (env : Scope) (source : Nat → Float) (stops : Prop) (name : String)
    (args : List Expression) : Prop :=
  (s.resolve? name).isSome ∧ ∃ a ∈ args, ∃ p p' k, p.draws.source = source ∧
    Walk.evaluate s env a p = .ok (.error k) p' ∧
    ((∃ k' u, (a.code s).run s env p.draws = .ok (.error k') u) ∨
      stops ∧ ∃ f u, (a.code s).run s env p.draws = .error f u)

/-- Whether a node by itself means the same to code and to immediate evaluation. For the same errors
a call of a function that nobody knows must be without arguments. -/
def Fits (t : Terms) (s : Setting) (env : Scope) : Expression → Prop
  | .literal v => ¬t.loose → v.isError = false
  | .identifier name => constant? name = none → (name ∈ s.declared ↔ (env.value? name).isSome)
  | .call name args =>
    s.callFault? name args.length = none ∧ (t.sharp → s.resolve? name = none → args = []) ∧
      (t.loose → ¬s.TakesError env t.source t.stops name args)
  | x => s.nodeFault? x = none

end Setting

private theorem Setting.HoldsNoError.variableValue?_isError {s : Setting} {env : Scope}
    {name : String} {v : Value} (h : s.HoldsNoError env)
    (hv : Walk.variableValue? s env name = some v) : v.isError = false := by
  rcases Option.or_eq_some_iff.mp hv with hc | ⟨-, hv⟩
  · exact constant?_isError hc
  · rcases Option.or_eq_some_iff.mp hv with henv | ⟨-, hown⟩
    · exact h.environment name v henv
    · exact h.own name v hown

private theorem Code.run_variableCode {s : Setting} {env : Scope} {name : String}
    (hname : constant? name = none → (name ∈ s.declared ↔ (env.value? name).isSome)) :
    Code.run s env (s.variableCode name) =
      pure ((Walk.variableValue? s env name).getD (.error (.variable name))) := by
  unfold Walk.variableValue?
  cases hc : constant? name with
  | some v =>
    rw [Setting.variableCode_of_constant hc, Code.run]
    rfl
  | none =>
    have hdeclared := hname hc
    cases henv : env.value? name with
    | some v =>
      have hd : name ∈ s.declared := hdeclared.mpr (by simp [henv])
      rw [Setting.variableCode_of_declared hc hd, Code.run, readVariable, henv]
      rfl
    | none =>
      have hd : name ∉ s.declared := fun hd => by simpa [henv] using hdeclared.mp hd
      cases hown : s.instanceVariables.value? name with
      | some v =>
        rw [Setting.variableCode_of_value hc hd hown, Code.run, readVariable, hown]
        rfl
      | none =>
        rw [s.variableCode_of_unknown (Setting.knows_eq_false_iff.mpr ⟨hc, hd, hown⟩), Code.run]
        rfl

section

variable {op : String} {vs : List Value}

private theorem answers_run_applyOperator {k : FormulaError} (h : Value.firstError? vs = some k) :
    Answers (Value.error? · = some k) (Run.lift (applyOperator op vs)) := by
  apply Answers.runLift
  intro v hv
  rw [applyOperator_of_firstError? h hv]
  rfl

private theorem answers_walk_applyOperator (h : (Value.firstError? vs).isSome) :
    Answers (fun v => v.error?.isSome) (Walk.lift (applyOperator op vs)) := by
  obtain ⟨k, hk⟩ := Option.isSome_iff_exists.mp h
  apply Answers.walkLift
  intro v hv
  rw [applyOperator_of_firstError? hk hv]
  rfl

end

namespace Meets

variable {t : Terms} {s : Setting} {env : Scope}

private theorem evaluateVariable (h : ¬t.loose → s.HoldsNoError env) {name : String}
    (hname : constant? name = none → (name ∈ s.declared ↔ (env.value? name).isSome)) :
    Meets t Value.error? (Code.run s env (s.variableCode name))
      (Walk.evaluateVariable s env name) := by
  rw [Code.run_variableCode hname, Walk.evaluateVariable]
  cases hv : Walk.variableValue? s env name with
  | some v =>
    exact .pure fun hstrict => Value.error?_eq_none_iff.mpr ((h hstrict).variableValue?_isError hv)
  | none => exact fun p _ => .raised rfl fun _ => rfl

private theorem evaluateAll {es : List Expression}
    (ih : ∀ e ∈ es, Meets t Value.error? (Code.run s env (e.code s)) (Walk.evaluate s env e)) :
    Meets t Value.firstError? (Code.runAll s env (Expression.codeAll s es))
      (Walk.evaluateAll s env es) := by
  induction es with
  | nil =>
    rw [Expression.codeAll, Code.runAll, Walk.evaluateAll]
    exact .pure fun _ => rfl
  | cons e es ihs =>
    rw [Expression.codeAll, Code.runAll, Walk.evaluateAll]
    apply Meets.bind (ih e (by simp))
    · intro v d d' _ hv
      apply Meets.bind (ihs fun x hx => ih x (by simp [hx]))
      · intro vs u u' _ hvs
        exact .pure fun _ => by rw [Value.firstError?_cons, hv, hvs]; rfl
      · intro vs k hvs
        exact .pure (by rw [Value.firstError?_cons, hv, hvs]; rfl)
      · intro _ _ _ vs _ _ hvs _
        exact .pure (by simp [Value.firstError?_cons, hvs])
    · intro v k hv
      exact .bind fun vs => .pure (by rw [Value.firstError?_cons, hv]; rfl)
    · intro _ _ _ v _ _ hv _
      exact .bind fun vs => .pure (by simp [Value.firstError?_cons, hv])

private theorem run_of_value {e : Expression}
    (h : Meets t Value.error? (Code.run s env (e.code s)) (Walk.evaluate s env e)) {p q : Pass}
    {v : Value} (hp : p.draws.source = t.source) (hwalk : Walk.evaluate s env e p = .ok v q)
    (hv : v.error? = none) (hrun : ¬t.stops → ∃ w d, Code.run s env (e.code s) p.draws = .ok w d) :
    Code.run s env (e.code s) p.draws = .ok v q.draws ∧ q.draws.source = t.source := by
  have hmeets := h p hp
  generalize hx : Code.run s env (e.code s) p.draws = x at hmeets
  rw [hwalk] at hmeets
  cases hmeets with
  | value _ hq => exact ⟨rfl, hq⟩
  | carried _ _ herror => simp [hv] at herror
  | outlived _ herror =>
    have hnot : ¬t.stops := fun hstops => by simpa [hv] using herror hstops
    obtain ⟨w, d, hw⟩ := hrun hnot
    cases hx.symm.trans hw

private theorem run_of_error {e : Expression}
    (h : Meets t Value.error? (Code.run s env (e.code s)) (Walk.evaluate s env e)) {p q : Pass}
    {k : FormulaError} (hp : p.draws.source = t.source)
    (hwalk : Walk.evaluate s env e p = .ok (.error k) q)
    (hrun : ¬t.stops → ∃ w d, Code.run s env (e.code s) p.draws = .ok w d) :
    (∃ k' u, Code.run s env (e.code s) p.draws = .ok (.error k') u) ∨
      t.stops ∧ ∃ f u, Code.run s env (e.code s) p.draws = .error f u := by
  have hmeets := h p hp
  generalize hx : Code.run s env (e.code s) p.draws = x at hmeets
  rw [hwalk] at hmeets
  cases hmeets with
  | value hv => cases hv
  | @carried w _ d _ _ hw =>
    obtain ⟨k', hk⟩ := Option.isSome_iff_exists.mp hw
    rw [Value.error?_eq_some_iff.mp hk]
    exact .inl ⟨k', d, rfl⟩
  | @outlived f d =>
    have hstops : t.stops := by
      by_contra hnot
      obtain ⟨w, d', hw⟩ := hrun hnot
      cases hx.symm.trans hw
    exact .inr ⟨hstops, f, d, rfl⟩

private theorem exists_error_of_evaluateAll {es : List Expression}
    (ih : ∀ e ∈ es, Meets t Value.error? (Code.run s env (e.code s)) (Walk.evaluate s env e))
    {p q : Pass} {vs : List Value} (hp : p.draws.source = t.source)
    (h : Walk.evaluateAll s env es p = .ok vs q) (hvs : (Value.firstError? vs).isSome)
    (hrun : ¬t.stops → ∃ ws d, Code.runAll s env (Expression.codeAll s es) p.draws = .ok ws d) :
    ∃ a ∈ es, ∃ p p' k, p.draws.source = t.source ∧ Walk.evaluate s env a p = .ok (.error k) p' ∧
      ((∃ k' u, (a.code s).run s env p.draws = .ok (.error k') u) ∨
        t.stops ∧ ∃ f u, (a.code s).run s env p.draws = .error f u) := by
  induction es generalizing p vs with
  | nil =>
    cases h
    cases hvs
  | cons e es ihs =>
    rw [Walk.evaluateAll] at h
    obtain ⟨v, r, he, h⟩ := bind_eq_ok_iff.mp h
    obtain ⟨ws, r', hes, h⟩ := bind_eq_ok_iff.mp h
    cases h
    rw [Expression.codeAll, Code.runAll] at hrun
    have hmeets := ih e (by simp)
    have hfirst (hnot : ¬t.stops) : ∃ w d, Code.run s env (e.code s) p.draws = .ok w d := by
      obtain ⟨us, d, hall⟩ := hrun hnot
      obtain ⟨w, d', hw, -⟩ := bind_eq_ok_iff.mp hall
      exact ⟨w, d', hw⟩
    cases hv : v.error? with
    | some k =>
      rw [Value.error?_eq_some_iff] at hv
      subst hv
      exact ⟨e, by simp, p, r, k, hp, he, run_of_error hmeets hp he hfirst⟩
    | none =>
      obtain ⟨hcode, hr⟩ := run_of_value hmeets hp he hv hfirst
      have htail : (Value.firstError? ws).isSome := by
        simpa [Value.firstError?_cons, hv] using hvs
      have hrest (hnot : ¬t.stops) :
          ∃ us d, Code.runAll s env (Expression.codeAll s es) r.draws = .ok us d := by
        obtain ⟨us, d, hall⟩ := hrun hnot
        rw [bind_of_ok hcode] at hall
        obtain ⟨us, d', hall, -⟩ := bind_eq_ok_iff.mp hall
        exact ⟨us, d', hall⟩
      obtain ⟨a, ha, herror⟩ := ihs (fun x hx => ih x (by simp [hx])) hr hes htail hrest
      exact ⟨a, by simp [ha], herror⟩

private theorem evaluateFunction (h : ¬t.loose → s.HoldsNoError env) {name : String}
    {lib : Library} {f : Callable} (hf : s.resolve? name = some (lib, f)) {vs : List Value}
    (hvs : Value.firstError? vs = none) (harity : s.callFault? name vs.length = none) :
    Meets t Value.error? (callNamed (s.library lib.scope) name vs)
      (Walk.evaluateFunction s name vs none) := by
  obtain ⟨hlib, hfun⟩ := Setting.function?_of_resolve? hf
  have hcall : Meets t Value.error? (Run.call f vs) (Walk.ofRun (Run.call f vs)) := by
    apply Meets.ofRun_call
    intro hstrict d v hv
    have hproper := Value.firstError?_eq_none_iff.mp hvs
    exact Value.error?_eq_none_iff.mpr (s.errorFree_of_resolve? (h hstrict) hf hproper d v hv)
  rw [← hlib, callNamed_of_function? hvs hfun]
  intro p hp
  rw [Walk.evaluateFunction_of_resolve? hf harity]
  exact hcall (p.note _ false) hp

private theorem call (h : ¬t.loose → s.HoldsNoError env) {name : String} {args : List Expression}
    (harity : s.callFault? name args.length = none)
    (hsharp : t.sharp → s.resolve? name = none → args = [])
    (hloose : t.loose → ¬s.TakesError env t.source t.stops name args)
    (ih : ∀ a ∈ args, Meets t Value.error? (Code.run s env (a.code s)) (Walk.evaluate s env a)) :
    Meets t Value.error? (Code.run s env (s.callCode name (Expression.codeAll s args)))
      (Walk.evaluate s env (.call name args)) := by
  unfold Setting.callCode
  rw [Walk.evaluate]
  cases hf : s.resolve? name with
  | none =>
    rw [Code.run]
    intro p _
    cases hin : Walk.inCall s name (Walk.evaluateAll s env args) p with
    | ok vs q =>
      rw [bind_of_ok hin, Walk.evaluateFunction, hf]
      exact .raised rfl fun _ => rfl
    | error k q =>
      rw [bind_of_error hin]
      refine .raised rfl fun hs => ?_
      rw [hsharp hs hf] at hin
      cases hin
  | some r =>
    obtain ⟨lib, f⟩ := r
    dsimp only
    rw [Code.run]
    apply Meets.bind ((evaluateAll ih).inCall s name)
    · intro vs d d' hrun hvs
      apply evaluateFunction h hf hvs
      rw [Code.length_of_runAll hrun, Expression.length_codeAll]
      exact harity
    · intro vs k hvs
      rw [callNamed_of_firstError? hvs]
      exact .pure rfl
    · intro ht p q vs hp hin hvs hrun
      obtain ⟨r, hall, -⟩ := Walk.inCall_eq_ok_iff.mp hin
      have hopened : (p.beginCall ⟨name, s.isAggregate name⟩).draws.source = t.source := hp
      have herror := exists_error_of_evaluateAll ih hopened hall hvs hrun
      exact absurd ⟨by simp [hf], herror⟩ (hloose ht)

private theorem unary {op : String} {o : UnaryOperator} (ho : UnaryOperator.ofSymbol? op = some o)
    {x : Expression}
    (ih : Meets t Value.error? (Code.run s env (x.code s)) (Walk.evaluate s env x)) :
    Meets t Value.error? (Code.run s env (.operation op [x.code s]))
      (Walk.evaluate s env (.unary op x)) := by
  rw [Code.run_unary (Logical.ofSymbol?_of_unary ho), Walk.evaluate, ho]
  dsimp only
  apply Meets.bind ih
  · intro v d d' _ hv
    apply Meets.lift
    intro _ w hw
    exact Value.error?_eq_none_iff.mpr (applyUnary_isError (Value.error?_eq_none_iff.mp hv) hw)
  · intro v k hv
    exact answers_run_applyOperator (by simp [Value.firstError?_cons, hv])
  · intro _ _ _ v _ _ hv _
    exact answers_walk_applyOperator (by simp [Value.firstError?_cons, hv])

private theorem strict {op : String} {o : BinaryOperator} (hop : Logical.ofSymbol? op = none)
    (ho : BinaryOperator.ofSymbol? op = some o) {l r : Expression}
    (ihl : Meets t Value.error? (Code.run s env (l.code s)) (Walk.evaluate s env l))
    (ihr : Meets t Value.error? (Code.run s env (r.code s)) (Walk.evaluate s env r)) :
    Meets t Value.error? (Code.run s env (.operation op [l.code s, r.code s]))
      (Walk.evaluate s env (.binary op l r)) := by
  rw [Code.run_binary_of_strict hop, Walk.evaluate, ho]
  simp only [Walk.decides_of_strict hop ho, Walk.lift_ok, pure_bind, Bool.false_eq_true, if_false]
  apply Meets.bind ihl
  · intro v d d' _ hv
    have hverror := Value.error?_eq_none_iff.mp hv
    apply Meets.bind ihr
    · intro w u u' _ hw
      apply Meets.lift
      intro _ z hz
      exact Value.error?_eq_none_iff.mpr
        (applyBinary_isError hverror (Value.error?_eq_none_iff.mp hw) hz)
    · intro w k hw
      exact answers_run_applyOperator (by simp [Value.firstError?_cons, hv, hw])
    · intro _ _ _ w _ _ hw _
      exact answers_walk_applyOperator (by simp [Value.firstError?_cons, hw])
  · intro v k hv
    exact .bind fun w => answers_run_applyOperator (by simp [Value.firstError?_cons, hv])
  · intro _ _ _ v _ _ hv _
    exact .bind fun w => answers_walk_applyOperator (by simp [Value.firstError?_cons, hv])

private theorem logical {op : String} {o : Logical} (hop : Logical.ofSymbol? op = some o)
    {l r : Expression}
    (ihl : Meets t Value.error? (Code.run s env (l.code s)) (Walk.evaluate s env l))
    (ihr : Meets t Value.error? (Code.run s env (r.code s)) (Walk.evaluate s env r)) :
    Meets t Value.error? (Code.run s env (.operation op [l.code s, r.code s]))
      (Walk.evaluate s env (.binary op l r)) := by
  rw [Code.run_of_logical hop, Walk.evaluate, BinaryOperator.ofSymbol?_of_logical hop]
  dsimp only
  apply Meets.bind ihl
  · intro v d d' _ hv
    have hverror := Value.error?_eq_none_iff.mp hv
    rw [Walk.decides, if_neg (by simp [hverror])]
    cases ht : v.truth with
    | error t => exact fun p _ => .stopped fun _ => .inl rfl
    | ok b =>
      simp only [Fault.ofTrap, Except.map, Run.lift_ok, Walk.lift_ok, pure_bind]
      by_cases hopen : b = o.deciding
      · simp only [hopen, decide_true, if_true]
        exact .pure fun _ => hv
      · simp only [hopen, decide_false, if_false, Bool.false_eq_true]
        -- Code answers the second operand itself, evaluation applies the operator once more.
        rw [← bind_pure (Code.run s env (r.code s))]
        apply Meets.bind ihr
        · intro w u u' _ hw
          rw [applyOperator, applyBinary_of_open hop hverror ht hopen
            (Value.error?_eq_none_iff.mp hw)]
          exact .pure fun _ => hw
        · exact fun w k hw => .pure hw
        · intro _ _ _ w _ _ hw _
          exact answers_walk_applyOperator (by simp [Value.firstError?_cons, hw])
  · intro v k hv
    rw [Value.error?_eq_some_iff.mp hv]
    exact .pure rfl
  · intro _ _ _ v _ _ hv _
    apply Answers.bind
    intro decided
    split
    · exact .pure hv
    · exact .bind fun w => answers_walk_applyOperator (by simp [Value.firstError?_cons, hv])

/-- On all terms that the nodes of an expression fit, an immediate evaluation meets the code. -/
theorem evaluate (h : ¬t.loose → s.HoldsNoError env) {e : Expression}
    (hfits : ∀ x ∈ e.nodes, s.Fits t env x) :
    Meets t Value.error? (Code.run s env (e.code s)) (Walk.evaluate s env e) := by
  induction e with
  | literal v =>
    have hv : ¬t.loose → v.isError = false := hfits (.literal v) (by simp [Expression.nodes])
    rw [Expression.code, Code.run, Walk.evaluate]
    exact .pure fun hstrict => Value.error?_eq_none_iff.mpr (hv hstrict)
  | identifier name =>
    have hname := hfits (.identifier name) (by simp [Expression.nodes])
    rw [Expression.code, Walk.evaluate]
    exact evaluateVariable h hname
  | call name args ih =>
    obtain ⟨⟨harity, hsharp, hloose⟩, hargs⟩ := Expression.forall_nodes_call.mp hfits
    exact call h harity hsharp hloose fun a ha => ih a ha (hargs a ha)
  | unary op x ih =>
    obtain ⟨hop, hx⟩ := Expression.forall_nodes_unary.mp hfits
    obtain ⟨o, ho⟩ := Setting.nodeFault?_unary_eq_none_iff.mp hop
    exact unary ho (ih hx)
  | binary op l r ihl ihr =>
    obtain ⟨hop, hl, hr⟩ := Expression.forall_nodes_binary.mp hfits
    obtain ⟨o, ho⟩ := Setting.nodeFault?_binary_eq_none_iff.mp hop
    cases hlogical : Logical.ofSymbol? op with
    | none => exact strict hlogical ho (ihl hl) (ihr hr)
    | some l => exact logical hlogical (ihl hl) (ihr hr)
  | foreign v => simp [Expression.nodes, Setting.Fits, Setting.nodeFault?] at hfits

end Meets

namespace Expression

mutual

/-- The expression without the arguments of all calls of functions that nobody knows. -/
def trim (s : Setting) : Expression → Expression
  | .literal v => .literal v
  | .identifier name => .identifier name
  | .call name args => .call name (if (s.resolve? name).isSome then trimAll s args else [])
  | .unary op x => .unary op (trim s x)
  | .binary op l r => .binary op (trim s l) (trim s r)
  | .foreign v => .foreign v

def trimAll (s : Setting) : List Expression → List Expression
  | [] => []
  | e :: es => trim s e :: trimAll s es

end

variable {s : Setting} {env : Scope}

private theorem trimAll_eq_map (s : Setting) (es : List Expression) :
    trimAll s es = es.map (trim s) := by
  induction es with
  | nil => rfl
  | cons e es ih => rw [trimAll, ih, List.map_cons]

private theorem trim_call_of_known {name : String} (h : (s.resolve? name).isSome)
    (args : List Expression) : (call name args).trim s = .call name (args.map (trim s)) := by
  rw [trim, if_pos h, trimAll_eq_map]

private theorem trim_call_of_unknown {name : String} (h : s.resolve? name = none)
    (args : List Expression) : (call name args).trim s = .call name [] := by
  rw [trim, h]
  rfl

private theorem trim_eq_self {e : Expression}
    (h : ∀ name args, .call name args ∈ e.nodes → (s.resolve? name).isSome) : e.trim s = e := by
  induction e with
  | call name args ih =>
    have hargs : ∀ a ∈ args, a.trim s = a := by
      intro a ha
      apply ih a ha
      intro n as hn
      exact h n as (by simp [nodes, mem_nodesAll.mpr ⟨a, ha, hn⟩])
    rw [trim_call_of_known (h name args (by simp [nodes])), List.map_congr_left hargs, List.map_id']
  | unary op x ih => rw [trim, ih fun name args hx => h name args (by simp [nodes, hx])]
  | binary op l r ihl ihr =>
    rw [trim, ihl fun name args hx => h name args (by simp [nodes, hx]),
      ihr fun name args hx => h name args (by simp [nodes, hx])]
  | _ => rfl

private theorem code_trim (s : Setting) (e : Expression) : (e.trim s).code s = e.code s := by
  induction e with
  | call name args ih =>
    cases hf : s.resolve? name with
    | none => rw [trim_call_of_unknown hf, code, code, Setting.callCode, Setting.callCode, hf]
    | some r =>
      have hargs : codeAll s (args.map (trim s)) = codeAll s args := by
        rw [codeAll_eq_map, codeAll_eq_map, List.map_map]
        exact List.map_congr_left ih
      rw [trim_call_of_known (by simp [hf]), code, code, hargs]
  | unary op x ih => rw [trim, code, code, ih]
  | binary op l r ihl ihr => rw [trim, code, code, ihl, ihr]
  | _ => rfl

private theorem fits_trim {source : Nat → Float} {e : Expression}
    (h : ∀ x ∈ e.nodes, s.Fits (.plain source) env x) :
    ∀ x ∈ (e.trim s).nodes, s.Fits (.exactly source) env x := by
  induction e with
  | call name args ih =>
    obtain ⟨⟨harity, -⟩, hargs⟩ := forall_nodes_call.mp h
    cases hf : s.resolve? name with
    | none =>
      rw [trim_call_of_unknown hf, forall_nodes_call]
      refine ⟨⟨?_, fun _ _ => rfl, False.elim⟩, by simp⟩
      rw [Setting.callFault?, hf]
    | some r =>
      rw [trim_call_of_known (by simp [hf]), forall_nodes_call]
      refine ⟨⟨by rwa [List.length_map], fun _ hnone => ?_, False.elim⟩, ?_⟩
      · rw [hf] at hnone
        cases hnone
      · intro b hb
        obtain ⟨a, ha, rfl⟩ := List.mem_map.mp hb
        exact ih a ha (hargs a ha)
  | unary op x ih =>
    obtain ⟨hop, hx⟩ := forall_nodes_unary.mp h
    exact forall_nodes_unary.mpr ⟨hop, ih hx⟩
  | binary op l r ihl ihr =>
    obtain ⟨hop, hl, hr⟩ := forall_nodes_binary.mp h
    exact forall_nodes_binary.mpr ⟨hop, ihl hl, ihr hr⟩
  | _ => simpa [trim, nodes, Setting.Fits, Terms.plain, Terms.exactly] using h

end Expression

private theorem Setting.Comparable.fits {s : Setting} {env : Scope} {e : Expression}
    (h : s.Comparable env e) (hfaults : ∀ x ∈ e.nodes, s.nodeFault? x = none)
    (source : Nat → Float) : ∀ x ∈ e.nodes, s.Fits (.plain source) env x := by
  intro x hx
  cases x with
  | literal v => exact fun _ => h.literals v hx
  | identifier name => exact h.supplied name hx
  | call name args => exact ⟨hfaults _ hx, False.elim, False.elim⟩
  | _ => exact hfaults _ hx

theorem Value.demand_of_error?_eq_none {v : Value} (h : v.error? = none) : v.demand = .ok v := by
  cases v with
  | error k => cases h
  | _ => rfl

private theorem Value.demand_of_error?_eq_some {v : Value} {k : FormulaError}
    (h : v.error? = some k) : v.demand = .error (.formula k) := by
  rw [Value.error?_eq_some_iff.mp h]
  rfl

namespace Context

variable {c c' r d : Context} {e : Expression} {code : Code} {env : Scope}

theorem evaluate_of_ok {v : Value} {p : Pass}
    (h : Walk.evaluate d.setting env e { d.pass with found := [] } = .ok v p) :
    d.evaluate e env = (.ok v, d.afterEvaluation p) := by
  rw [evaluate, h]

theorem evaluate_of_error {f : Fault} {p : Pass}
    (h : Walk.evaluate d.setting env e { d.pass with found := [] } = .error f p) :
    d.evaluate e env = (.error f, d.afterEvaluation p) := by
  rw [evaluate, h]

private theorem demand_evaluate_cases {t : Terms}
    (h : Meets t Value.error? (code.run c.setting env) (Walk.evaluate c.setting env e))
    (hloose : ¬t.loose) (hr : r.setting = c.setting) (hd : d.setting = c.setting)
    (hdraws : r.pass.draws = d.pass.draws) (hsource : d.pass.draws.source = t.source) :
    (∃ v, (r.demand code env).1 = .ok v ∧ (d.evaluate e env).1 = .ok v ∧
        (r.demand code env).2.pass.draws = (d.evaluate e env).2.pass.draws) ∨
      (∃ k f, (r.demand code env).1 = .error (.formula k) ∧ (d.evaluate e env).1 = .error f ∧
        (t.sharp → f = .formula k)) ∨
      ∃ f g, (r.demand code env).1 = .error f ∧ (r.run code env).1 = .error f ∧
        (d.evaluate e env).1 = .error g ∧ (t.sharp → g = f ∨ ∃ k, g = .formula k) := by
  have hmeets : MeetsAt t Value.error? (code.run r.setting env r.pass.draws)
      (Walk.evaluate d.setting env e { d.pass with found := [] }) := by
    rw [hr, hd, hdraws]
    exact h { d.pass with found := [] } hsource
  generalize hrun : code.run r.setting env r.pass.draws = x at hmeets
  generalize hwalk : Walk.evaluate d.setting env e { d.pass with found := [] } = y at hmeets
  cases hmeets with
  | @value v p hv _ =>
    have hdemand := demand_of_lift (o := .ok v) hrun
    refine .inl ⟨v, ?_, ?_, ?_⟩
    · rw [hdemand]
      exact Value.demand_of_error?_eq_none hv
    · rw [evaluate_of_ok hwalk]
    · rw [hdemand, evaluate_of_ok hwalk]
      rfl
  | carried ht => exact absurd ht hloose
  | @raised v k u f p hv hf =>
    refine .inr (.inl ⟨k, f, ?_, ?_, hf⟩)
    · rw [demand_of_lift (o := .ok v) hrun]
      exact Value.demand_of_error?_eq_some hv
    · rw [evaluate_of_error hwalk]
  | outlived ht => exact absurd ht hloose
  | @stopped f g u p hg =>
    refine .inr (.inr ⟨f, g, ?_, ?_, ?_, hg⟩)
    · rw [demand_of_lift (o := .error f) hrun]
      rfl
    · rw [run_of_lift (o := .error f) hrun]
    · rw [evaluate_of_error hwalk]

/-- Compiled code answers a value exactly if immediate evaluation in the same tables and from the
same random numbers on answers it, and then both have drawn the same numbers. So one of them fails
exactly if the other does. -/
theorem demand_eq_ok_iff (h : c.compile e = (.ok code, c')) (hr : r.setting = c.setting)
    (hd : d.setting = c.setting) (hdraws : r.pass.draws = d.pass.draws)
    (hcomparable : c.setting.Comparable env e) :
    (∀ v, (r.demand code env).1 = .ok v ↔ (d.evaluate e env).1 = .ok v) ∧
      (∀ v, (r.demand code env).1 = .ok v →
        (r.demand code env).2.pass.draws = (d.evaluate e env).2.pass.draws) ∧
      ((∃ f, (r.demand code env).1 = .error f) ↔ ∃ f, (d.evaluate e env).1 = .error f) := by
  obtain ⟨hfaults, rfl, -⟩ := compile_eq_ok_iff.mp h
  have hfits := hcomparable.fits hfaults d.pass.draws.source
  have hmeets := Meets.evaluate (fun _ => hcomparable.toHoldsNoError) hfits
  rcases demand_evaluate_cases hmeets id hr hd hdraws rfl with
    ⟨v, hrun, hwalk, hsame⟩ | ⟨k, f, hrun, hwalk, -⟩ | ⟨f, g, hrun, -, hwalk, -⟩
  · simp [hrun, hwalk, hsame]
  · simp [hrun, hwalk]
  · simp [hrun, hwalk]

/-- A client function and a random number in a formula. -/
theorem demand_eq_ok_iff_text :
    let s := { Setting.bare "c" with
      declared := ["x"]
      functions := Table.empty.insert "first" (.function fun args => .ok (argument args 0)) }
    let c := Context.new s (.cycle [])
    let env : Scope := Table.empty.insert "x" (.text "yes")
    let e : Expression := .binary "&" (.call "first" [.identifier "x", .call "random" []])
      (.literal (.text "!"))
    let code : Code := .operation "&"
      [.call .client "first" [.read .environment "x", .call .builtin "random" []],
        .constant (.text "!")]
    c.compile e = (.ok code, (c.compile e).2) ∧
      (c.evaluate e env).1 = .ok (.text "yes!") ∧
      ((c.compile e).2.demand code env).1 = .ok (.text "yes!") := by
  intro s c env e code
  have h : c.compile e = (.ok code, (c.compile e).2) := rfl
  have hwalk : (c.evaluate e env).1 = .ok (.text "yes!") := rfl
  have hcomparable : s.Comparable env e := by
    have henv (name : String) :
        env.value? name = if "x" = name then some (.text "yes") else none := by
      rw [Scope.value?, Table.get?_insert]
      by_cases hx : "x" = name
      · rw [if_pos hx, if_pos hx]
      · rw [if_neg hx, if_neg hx, Table.get?_empty]
    refine ⟨⟨?_, ?_, ?_⟩, ?_, ?_⟩
    · intro name v hv
      cases hv
    · intro name v hv
      rw [henv] at hv
      split at hv <;> cases hv
      rfl
    · intro name f hf args hargs
      rw [Table.get?_insert] at hf
      split at hf <;> cases hf
      exact errorFree_ok (by cases args <;> simp_all [argument, Value.isError])
    · intro v hv
      simp only [e, Expression.nodes, Expression.nodesAll] at hv
      simp at hv
      rw [hv]
      rfl
    · intro name hname _
      simp [e, Expression.nodes, Expression.nodesAll] at hname
      rw [hname]
      simp [s, henv]
  exact ⟨h, hwalk, ((demand_eq_ok_iff h rfl rfl rfl hcomparable).1 _).mpr hwalk⟩

/-- Trimming changes no expression whose functions are all known. If no function keeps code from
an answer, then the error that is its value is the one that immediate evaluation of the trimmed
expression raises. Otherwise that evaluation stops at the same fault or at an error before it. -/
theorem demand_eq_formula_iff (h : c.compile e = (.ok code, c')) (hr : r.setting = c.setting)
    (hd : d.setting = c.setting) (hdraws : r.pass.draws = d.pass.draws)
    (hcomparable : c.setting.Comparable env e) :
    ((∀ name args, .call name args ∈ e.nodes → (c.setting.resolve? name).isSome) →
        e.trim c.setting = e) ∧
      ((∀ f, (r.run code env).1 ≠ .error f) →
        ∀ k, (r.demand code env).1 = .error (.formula k) ↔
          (d.evaluate (e.trim c.setting) env).1 = .error (.formula k)) ∧
      ∀ f, (r.run code env).1 = .error f →
        ∃ g, (d.evaluate (e.trim c.setting) env).1 = .error g ∧
          (g = f ∨ ∃ k, g = .formula k) := by
  refine ⟨Expression.trim_eq_self, ?_⟩
  obtain ⟨hfaults, rfl, -⟩ := compile_eq_ok_iff.mp h
  have hfits := Expression.fits_trim (hcomparable.fits hfaults d.pass.draws.source)
  have hmeets := Meets.evaluate (fun _ => hcomparable.toHoldsNoError) hfits
  rw [Expression.code_trim] at hmeets
  rcases demand_evaluate_cases hmeets id hr hd hdraws rfl with
    ⟨v, hdemand, hwalk, -⟩ | ⟨k, f, hdemand, hwalk, hsame⟩ | ⟨f, g, hdemand, hrun, hwalk, hg⟩
  · refine ⟨fun _ k => by simp [hdemand, hwalk], fun f hrun => ?_⟩
    rw [demand_fst, hrun] at hdemand
    cases hdemand
  · refine ⟨fun _ k' => ?_, fun f' hrun => ?_⟩
    · rw [hdemand, hwalk, hsame trivial]
    · exact ⟨f, hwalk, .inr ⟨k, hsame trivial⟩⟩
  · refine ⟨fun hreturns => absurd hrun (hreturns f), fun f' hrun' => ?_⟩
    rw [hrun] at hrun'
    cases hrun'
    exact ⟨g, hwalk, hg trivial⟩

/-- The error of a call of an unknown function hides that of its argument from code only. -/
theorem demand_eq_formula_iff_unknown :
    let s := Setting.bare "c"
    let c := Context.new s (.cycle [])
    let e : Expression := .binary "&" (.call "f" [.identifier "u"]) (.identifier "v")
    let code : Code := .operation "&" [.deferred (.function "f"), .deferred (.variable "v")]
    c.compile e = (.ok code, (c.compile e).2) ∧
      (c.evaluate e .empty).1 = .error (.formula (.variable "u")) ∧
      (c.evaluate (e.trim s) .empty).1 = .error (.formula (.function "f")) ∧
      ((c.compile e).2.demand code .empty).1 = .error (.formula (.function "f")) := by
  intro s c e code
  have h : c.compile e = (.ok code, (c.compile e).2) := rfl
  have hcomparable : s.Comparable .empty e := by
    refine ⟨⟨?_, ?_, ?_⟩, ?_, ?_⟩
    · intro name v hv
      cases hv
    · intro name v hv
      cases hv
    · intro name f hf
      cases hf
    · intro v hv
      simp [e, Expression.nodes, Expression.nodesAll] at hv
    · intro name _ _
      have hempty : (Scope.value? .empty name).isSome = false := rfl
      simp [s, Setting.bare, hempty]
  have hwalk : (c.evaluate (e.trim s) .empty).1 = .error (.formula (.function "f")) := rfl
  have hrun : ((c.compile e).2.run code .empty).1 = .ok (.error (.function "f")) := rfl
  have hreturns : ∀ f, ((c.compile e).2.run code .empty).1 ≠ .error f := by
    intro f hf
    rw [hrun] at hf
    cases hf
  have hiff := (demand_eq_formula_iff h rfl rfl rfl hcomparable).2.1 hreturns
  exact ⟨h, rfl, hwalk, (hiff _).mpr hwalk⟩

/-- A client's function that raises an error of its own comes before an error that code carries
along, though an immediate evaluation stops at the latter. -/
theorem demand_ne_evaluate_of_client :
    let s := ((Setting.bare "c").setFunction "f" (.function fun _ => .ok .null)).setFunction "g"
      (.function fun _ => .error (.formula (.variable "z")))
    let c := Context.new s (.cycle [])
    let e : Expression := .call "f" [.identifier "u", .call "g" []]
    let code : Code := .call .client "f" [.deferred (.variable "u"), .call .client "g" []]
    c.compile e = (.ok code, (c.compile e).2) ∧ s.Comparable .empty e ∧ e.trim s = e ∧
      ((c.compile e).2.run code .empty).1 = .error (.formula (.variable "z")) ∧
      ((c.compile e).2.demand code .empty).1 = .error (.formula (.variable "z")) ∧
      (c.evaluate (e.trim s) .empty).1 = .error (.formula (.variable "u")) := by
  intro s c e code
  refine ⟨rfl, ?_, rfl, rfl, rfl, rfl⟩
  refine ⟨⟨?_, ?_, ?_⟩, ?_, ?_⟩
  · intro name v hv
    cases hv
  · intro name v hv
    cases hv
  · intro name f hf args _ v hv
    simp only [s, Setting.setFunction, Table.get?_insert] at hf
    split at hf
    · cases hf
      cases hv
    · split at hf
      · cases hf
        cases hv
        rfl
      · cases hf
  · intro v hv
    simp [e, Expression.nodes, Expression.nodesAll] at hv
  · intro name _ _
    have hempty : (Scope.value? .empty name).isSome = false := rfl
    simp [s, Setting.setFunction, Setting.bare, hempty]

end Context

end FormulaEngine

import FormulaEngine.Proofs.Ownership
import FormulaEngine.Proofs.Soundness
/-!
# Strict settings

Strict settings refuse calls with too many arguments, and that is all that they change. A walk in
strict settings does what it does in lenient ones until it meets such a call, and stops there with a
fault that names the call. So everything that strict settings let through comes to the same without
them.
-/
namespace FormulaEngine

namespace Setting

def withStrict (s : Setting) (strict : Bool) : Setting :=
  { s with strict := strict }

private theorem resolve?_withStrict (s : Setting) (strict : Bool) (name : String) :
    (s.withStrict strict).resolve? name = s.resolve? name := rfl

/-- Whether a node is a call with more arguments than its function takes by its specification, and
the fault that this is in strict settings. -/
inductive Overfull (s : Setting) : Expression → Fault → Prop
  | call {name : String} {args : List Expression} {lib : Library} {f : Callable}
      {spec : FunctionSpec} {m : Nat} (hf : s.resolve? name = some (lib, f))
      (hspec : lib.spec? name = some spec) (hmost : spec.most = some m) (h : m < args.length) :
      Overfull s (.call name args) (.formula (.arguments name spec .most))

/-- Whether a fault is that of an overfull call somewhere in an expression. -/
def Overfills (s : Setting) (e : Expression) (f : Fault) : Prop :=
  ∃ x ∈ e.nodes, s.Overfull x f

section

variable {s : Setting} {f : Fault} {args : List Expression} {a x l r : Expression}

private theorem Overfills.of_argument (name : String) (ha : a ∈ args) (h : s.Overfills a f) :
    s.Overfills (.call name args) f := by
  obtain ⟨y, hy, hfull⟩ := h
  exact ⟨y, .tail _ (Expression.mem_nodesAll.mpr ⟨a, ha, hy⟩), hfull⟩

private theorem Overfills.of_operand (op : String) (h : s.Overfills x f) :
    s.Overfills (.unary op x) f := by
  obtain ⟨y, hy, hfull⟩ := h
  exact ⟨y, .tail _ hy, hfull⟩

private theorem Overfills.of_left (op : String) (r : Expression) (h : s.Overfills l f) :
    s.Overfills (.binary op l r) f := by
  obtain ⟨y, hy, hfull⟩ := h
  exact ⟨y, .tail _ (List.mem_append_left _ hy), hfull⟩

private theorem Overfills.of_right (op : String) (l : Expression) (h : s.Overfills r f) :
    s.Overfills (.binary op l r) f := by
  obtain ⟨y, hy, hfull⟩ := h
  exact ⟨y, .tail _ (List.mem_append_right _ hy), hfull⟩

end

end Setting

namespace Walk

private theorem brokenBound?_strict (spec : FunctionSpec) (n : Nat) :
    brokenBound? spec true n = brokenBound? spec false n ∨
      brokenBound? spec true n = some .most ∧ ∃ m, spec.most = some m ∧ m < n := by
  unfold brokenBound?
  by_cases hleast : n < spec.least
  · simp [hleast]
  · cases spec.most with
    | none => simp
    | some m =>
      by_cases hmost : m < n
      · simp [hleast, hmost]
      · simp [hmost]

private theorem exists_eq_lift {α : Type} (w : Walk α) (p : Pass) : ∃ o q, w p = lift o q := by
  cases h : w p with
  | ok a q => exact ⟨.ok a, q, rfl⟩
  | error e q => exact ⟨.error e, q, rfl⟩

variable {α β : Type} {P Q : Fault → Prop} {w w' : Walk α} {f f' : α → Walk β}

/-- Whether a walk does what another one does, unless a fault of some kind stops it. -/
def Restricts (P : Fault → Prop) (w w' : Walk α) : Prop :=
  ∀ p : Pass, w p = w' p ∨ ∃ e q, w p = .error e q ∧ P e

private theorem restricts_refl (w : Walk α) : Restricts P w w :=
  fun _ => .inl rfl

private theorem Restricts.mono (hw : Restricts P w w') (h : ∀ e, P e → Q e) : Restricts Q w w' := by
  intro p
  obtain hsame | ⟨e, q, hstop, he⟩ := hw p
  · exact .inl hsame
  · exact .inr ⟨e, q, hstop, h e he⟩

private theorem Restricts.bind (hw : Restricts P w w')
    (hf : ∀ a p q, w p = .ok a q → Restricts P (f a) (f' a)) :
    Restricts P (w >>= f) (w' >>= f') := by
  intro p
  obtain hsame | ⟨e, q, hstop, he⟩ := hw p
  · cases hp : w p with
    | ok a q =>
      rw [bind_of_ok hp, bind_of_ok (hsame.symm.trans hp)]
      exact hf a p q hp q
    | error e q =>
      rw [bind_of_error hp, bind_of_error (hsame.symm.trans hp)]
      exact .inl rfl
  · exact .inr ⟨e, q, bind_of_error hstop, he⟩

variable {s : Setting} {env : Scope} {name : String}

private theorem Restricts.inCall (hw : Restricts P w w') :
    Restricts P (inCall (s.withStrict true) name w) (inCall (s.withStrict false) name w') := by
  intro p
  have hagg : (s.withStrict true).isAggregate name = (s.withStrict false).isAggregate name := rfl
  unfold Walk.inCall
  rw [hagg]
  obtain hsame | ⟨e, q, hstop, he⟩ := hw (p.beginCall ⟨name, (s.withStrict false).isAggregate name⟩)
  · rw [hsame]
    exact .inl rfl
  · rw [hstop]
    exact .inr ⟨e, q.endCall (some name), rfl, he⟩

private theorem restricts_checkCall {lib : Library} {g : Callable} {args : List Expression}
    {n : Nat} (hf : s.resolve? name = some (lib, g)) (hn : n = args.length) :
    Restricts (s.Overfull (.call name args)) (checkCall (s.withStrict true) name n lib none)
      (checkCall (s.withStrict false) name n lib none) := by
  unfold checkCall
  cases hspec : lib.spec? name with
  | none => exact restricts_refl _
  | some spec =>
    dsimp only [Setting.withStrict]
    obtain hsame | ⟨hbroken, m, hmost, hm⟩ := brokenBound?_strict spec n
    · rw [hsame]
      exact restricts_refl _
    · rw [hn] at hm
      rw [hbroken]
      exact fun p => .inr ⟨_, p, rfl, .call hf hspec hmost hm⟩

private theorem restricts_compileFunction {args : List Expression} {codes : List Code}
    (hlength : codes.length = args.length) :
    Restricts (s.Overfull (.call name args)) (compileFunction (s.withStrict true) name codes none)
      (compileFunction (s.withStrict false) name codes none) := by
  unfold compileFunction
  rw [s.resolve?_withStrict, s.resolve?_withStrict]
  cases hf : s.resolve? name with
  | none => exact restricts_refl _
  | some r => exact (restricts_checkCall hf hlength).bind fun _ _ _ _ => restricts_refl _

private theorem restricts_evaluateFunction {args : List Expression} {vs : List Value}
    (hlength : vs.length = args.length) :
    Restricts (s.Overfull (.call name args)) (evaluateFunction (s.withStrict true) name vs none)
      (evaluateFunction (s.withStrict false) name vs none) := by
  unfold evaluateFunction
  rw [s.resolve?_withStrict, s.resolve?_withStrict]
  cases hf : s.resolve? name with
  | none => exact restricts_refl _
  | some r => exact (restricts_checkCall hf hlength).bind fun _ _ _ _ => restricts_refl _

private theorem restricts_compileAll {es : List Expression}
    (ih : ∀ e ∈ es,
      Restricts P (compile (s.withStrict true) e) (compile (s.withStrict false) e)) :
    Restricts P (compileAll (s.withStrict true) es) (compileAll (s.withStrict false) es) := by
  induction es with
  | nil => exact restricts_refl _
  | cons e es ihs =>
    have htail := ihs fun x hx => ih x (by simp [hx])
    rw [compileAll, compileAll]
    exact (ih e (by simp)).bind fun c _ _ _ => htail.bind fun cs _ _ _ => restricts_refl _

private theorem restricts_evaluateAll {es : List Expression}
    (ih : ∀ e ∈ es,
      Restricts P (evaluate (s.withStrict true) env e) (evaluate (s.withStrict false) env e)) :
    Restricts P (evaluateAll (s.withStrict true) env es)
      (evaluateAll (s.withStrict false) env es) := by
  induction es with
  | nil => exact restricts_refl _
  | cons e es ihs =>
    have htail := ihs fun x hx => ih x (by simp [hx])
    rw [evaluateAll, evaluateAll]
    exact (ih e (by simp)).bind fun v _ _ _ => htail.bind fun vs _ _ _ => restricts_refl _

private theorem restricts_compile (s : Setting) (e : Expression) :
    Restricts (s.Overfills e) (compile (s.withStrict true) e) (compile (s.withStrict false) e) := by
  induction e with
  | literal v => exact restricts_refl _
  | identifier name => exact restricts_refl _
  | call name args ih =>
    have hargs := restricts_compileAll fun a ha =>
      (ih a ha).mono fun f hf => hf.of_argument name ha
    rw [compile, compile]
    refine hargs.inCall.bind fun codes p q hcodes => ?_
    obtain ⟨q', hall, -⟩ := inCall_eq_ok_iff.mp hcodes
    exact (restricts_compileFunction (length_compileAll hall)).mono fun f hf => ⟨_, .head _, hf⟩
  | unary op x ih =>
    have hx := ih.mono fun f hf => hf.of_operand op
    rw [compile, compile]
    cases UnaryOperator.ofSymbol? op with
    | none => exact restricts_refl _
    | some o => exact hx.bind fun c _ _ _ => restricts_refl _
  | binary op l r ihl ihr =>
    have hl := ihl.mono fun f hf => hf.of_left op r
    have hr := ihr.mono fun f hf => hf.of_right op l
    rw [compile, compile]
    cases BinaryOperator.ofSymbol? op with
    | none => exact restricts_refl _
    | some o => exact hl.bind fun a _ _ _ => hr.bind fun b _ _ _ => restricts_refl _
  | foreign v => exact restricts_refl _

/-- A strict evaluation does what a lenient one does until it meets an overfull call. -/
private theorem restricts_evaluate (s : Setting) (env : Scope) (e : Expression) :
    Restricts (s.Overfills e) (evaluate (s.withStrict true) env e)
      (evaluate (s.withStrict false) env e) := by
  induction e with
  | literal v => exact restricts_refl _
  | identifier name => exact restricts_refl _
  | call name args ih =>
    have hargs := restricts_evaluateAll fun a ha =>
      (ih a ha).mono fun f hf => hf.of_argument name ha
    rw [evaluate, evaluate]
    refine hargs.inCall.bind fun vs p q hvs => ?_
    obtain ⟨q', hall, -⟩ := inCall_eq_ok_iff.mp hvs
    exact (restricts_evaluateFunction (length_of_evaluateAll hall)).mono
      fun f hf => ⟨_, .head _, hf⟩
  | unary op x ih =>
    have hx := ih.mono fun f hf => hf.of_operand op
    rw [evaluate, evaluate]
    cases UnaryOperator.ofSymbol? op with
    | none => exact restricts_refl _
    | some o => exact hx.bind fun v _ _ _ => restricts_refl _
  | binary op l r ihl ihr =>
    have hl := ihl.mono fun f hf => hf.of_left op r
    have hr := ihr.mono fun f hf => hf.of_right op l
    rw [evaluate, evaluate]
    cases BinaryOperator.ofSymbol? op with
    | none => exact restricts_refl _
    | some o =>
      refine hl.bind fun v _ _ _ => (restricts_refl _).bind fun decided _ _ _ => ?_
      split
      · exact restricts_refl _
      · exact hr.bind fun w _ _ _ => restricts_refl _
  | foreign v => exact restricts_refl _

end Walk

namespace Context

def withStrict (c : Context) (strict : Bool) : Context :=
  c.under (c.setting.withStrict strict)

private theorem compile_withStrict (c : Context) (e : Expression) :
    (c.withStrict false).compile e =
        (((c.withStrict true).compile e).1, ((c.withStrict true).compile e).2.withStrict false) ∨
      ∃ f, ((c.withStrict true).compile e).1 = .error f ∧ c.setting.Overfills e f := by
  obtain ⟨o, q, hwalk⟩ :=
    Walk.exists_eq_lift (Walk.compile (c.setting.withStrict true) e) c.willCompile.pass
  have hstrict := walk_of_lift (c := (c.withStrict true).willCompile) hwalk
  change (c.withStrict true).compile e = _ at hstrict
  rw [hstrict]
  obtain hsame | ⟨f, q', hstop, hf⟩ := Walk.restricts_compile c.setting e c.willCompile.pass
  · exact .inl (walk_of_lift (c := (c.withStrict false).willCompile) (hsame.symm.trans hwalk))
  · exact .inr ⟨f, Walk.lift_eq_error (hwalk.symm.trans hstop), hf⟩

private theorem evaluate_withStrict (c : Context) (e : Expression) (env : Scope) :
    (c.withStrict false).evaluate e env =
        (((c.withStrict true).evaluate e env).1,
          ((c.withStrict true).evaluate e env).2.withStrict false) ∨
      ∃ f, ((c.withStrict true).evaluate e env).1 = .error f ∧ c.setting.Overfills e f := by
  obtain ⟨o, q, hwalk⟩ := Walk.exists_eq_lift (Walk.evaluate (c.setting.withStrict true) env e)
    { c.pass with found := [] }
  rw [evaluate_of_lift (d := c.withStrict true) hwalk]
  obtain hsame | ⟨f, q', hstop, hf⟩ :=
    Walk.restricts_evaluate c.setting env e { c.pass with found := [] }
  · exact .inl (evaluate_of_lift (d := c.withStrict false) (hsame.symm.trans hwalk))
  · exact .inr ⟨f, Walk.lift_eq_error (hwalk.symm.trans hstop), hf⟩

/-- Of two contexts that differ only in strictness the strict one compiles and evaluates less, and
nothing differently. What it compiles, the lenient one compiles to the same code with the same
dependencies and the same flag. Unless its evaluation is stopped at too many arguments, the lenient
evaluation comes to the same, with the same dependencies and random numbers. Where their outcomes
differ, the strict one is stopped at a call of the expression with more arguments than its function
takes. -/
theorem strict_restricts (c : Context) (e : Expression) (env : Scope) :
    let strict := c.withStrict true
    let lenient := c.withStrict false
    (∀ code c', strict.compile e = (.ok code, c') →
        lenient.compile e = (.ok code, c'.withStrict false)) ∧
      ((∀ name spec, (strict.evaluate e env).1 ≠ .error (.formula (.arguments name spec .most))) →
        lenient.evaluate e env =
          ((strict.evaluate e env).1, (strict.evaluate e env).2.withStrict false)) ∧
      ((strict.compile e).1 ≠ (lenient.compile e).1 →
        ∃ x ∈ e.nodes, ∃ f, c.setting.Overfull x f ∧ (strict.compile e).1 = .error f) ∧
      ((strict.evaluate e env).1 ≠ (lenient.evaluate e env).1 →
        ∃ x ∈ e.nodes, ∃ f, c.setting.Overfull x f ∧ (strict.evaluate e env).1 = .error f) := by
  intro strict lenient
  refine ⟨?_, ?_, ?_, ?_⟩
  · intro code c' h
    obtain hsame | ⟨f, hstop, -⟩ := c.compile_withStrict e
    · rw [h] at hsame
      exact hsame
    · rw [h] at hstop
      cases hstop
  · intro h
    obtain hsame | ⟨f, hstop, x, -, hx⟩ := c.evaluate_withStrict e env
    · exact hsame
    · cases hx
      exact absurd hstop (h _ _)
  · intro h
    obtain hsame | ⟨f, hstop, x, hx, hfull⟩ := c.compile_withStrict e
    · exact absurd (congrArg Prod.fst hsame).symm h
    · exact ⟨x, hx, f, hfull, hstop⟩
  · intro h
    obtain hsame | ⟨f, hstop, x, hx, hfull⟩ := c.evaluate_withStrict e env
    · exact absurd (congrArg Prod.fst hsame).symm h
    · exact ⟨x, hx, f, hfull, hstop⟩

/-- A strict evaluation stops at a call with too many arguments after it has drawn a random number.
The lenient one goes on, and draws and notes once more. -/
theorem strict_restricts_random :
    let f : ClientEntry := .function fun vs => .ok (.list vs)
    let c := Context.new ((Setting.bare "c").setFunction "f" f) (.cycle [])
    let strict := c.withStrict true
    let lenient := c.withStrict false
    let fine : Expression := .call "f" [.call "random" []]
    let full : Expression := .call "random" [.literal .null, .literal .null, .literal .null]
    let e : Expression := .call "f" [.call "random" [], full]
    let fault : Fault := .formula (.arguments "random" Builtin.random.spec .most)
    (strict.evaluate e .empty).1 = .error fault ∧
      (strict.evaluate e .empty).2.pass.draws.taken = 1 ∧
      (lenient.evaluate e .empty).1 = .ok (.list [.float 0.5, .float 0.5]) ∧
      (lenient.evaluate e .empty).2.pass.draws.taken = 2 ∧
      (∃ x ∈ e.nodes, ∃ k, c.setting.Overfull x k ∧ (strict.evaluate e .empty).1 = .error k) ∧
      (strict.compile e).1 ≠ (lenient.compile e).1 ∧
      (∃ x ∈ e.nodes, ∃ k, c.setting.Overfull x k ∧ (strict.compile e).1 = .error k) ∧
      (strict.evaluate fine .empty).1 = .ok (.list [.float 0.5]) ∧
      lenient.evaluate fine .empty = ((strict.evaluate fine .empty).1,
        (strict.evaluate fine .empty).2.withStrict false) := by
  intro f c strict lenient fine full e fault
  have hstrict : (strict.evaluate e .empty).1 = .error fault := rfl
  have hlenient : (lenient.evaluate e .empty).1 = .ok (.list [.float 0.5, .float 0.5]) := rfl
  have hfine : (strict.evaluate fine .empty).1 = .ok (.list [.float 0.5]) := rfl
  obtain ⟨-, -, hcompile, hevaluate⟩ := strict_restricts c e .empty
  have hsame := (strict_restricts c fine .empty).2.1
  have hdiffer : (strict.evaluate e .empty).1 ≠ (lenient.evaluate e .empty).1 := by
    intro h
    rw [hstrict, hlenient] at h
    cases h
  have hcodes : (strict.compile e).1 ≠ (lenient.compile e).1 := by
    intro h
    have hfails : (strict.compile e).1 = .error fault := rfl
    rw [hfails] at h
    cases h
  refine ⟨hstrict, rfl, hlenient, rfl, hevaluate hdiffer, hcodes, hcompile hcodes, hfine, hsame ?_⟩
  intro name spec h
  change (strict.evaluate fine .empty).1 = _ at h
  rw [hfine] at h
  cases h

end Context

end FormulaEngine

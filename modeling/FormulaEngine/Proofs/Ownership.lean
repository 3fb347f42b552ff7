import FormulaEngine.Proofs.Reporting
/-!
# Names that the libraries own

What a client enters under the name of a function of a fixed library has no influence on formulas.
They compile to the same code or are stopped by the same fault, evaluate to the same with the same
random numbers, and the same dependencies come to light in the same order. Only which calls count as
aggregates is up to the client even then, and so are the positions that dependencies are tagged with.
-/
namespace FormulaEngine

/-- Whether a fixed library has a function of a name. -/
def Library.owns (name : String) : Bool :=
  (builtin.function? name).isSome || (math.function? name).isSome

private theorem Library.ne_of_owns {name other : String} (h : owns name = true)
    (h' : owns other = false) : name ≠ other := by
  rintro rfl
  rw [h] at h'
  cases h'

/-- A dependency without the positions of the aggregate calls around it. -/
def Dependency.untagged (d : Dependency) : Dependency :=
  { d with aggregates := none }

def Delivery.untagged : Delivery → Delivery
  | .register d => .register d.untagged
  | .clear x => .clear x

/-- A pass in whose dependencies and flag nothing tells which calls were aggregates. -/
def Pass.untagged (p : Pass) : Pass :=
  { p with
    found := p.found.map Dependency.untagged
    hasAggregates := false
    outbox := p.outbox.map Delivery.untagged }

/-- A context in whose dependencies and flag nothing tells which calls were aggregates. -/
def Context.untagged (c : Context) : Context :=
  { c with pass := c.pass.untagged, evaluated := c.evaluated.map Dependency.untagged }

private theorem Delivery.map_untagged_register (ds : List Dependency) :
    (ds.map register).map untagged = (ds.map Dependency.untagged).map register := by
  rw [List.map_map, List.map_map]
  rfl

private theorem Pass.untagged_note (p : Pass) (ds : List Dependency) (b : Bool) :
    (p.note ds b).untagged = p.untagged.note (ds.map Dependency.untagged) false := by
  simp only [untagged, note, List.map_append, Delivery.map_untagged_register, Bool.or_false]

namespace Setting

section

variable (s : Setting) {name : String} {f : Callable}

theorem resolve?_of_builtin (h : Library.builtin.function? name = some f) :
    s.resolve? name = some (.builtin, f) := by
  simp [resolve?, FunctionScope.all, library, h]

theorem resolve?_of_math (hb : Library.builtin.function? name = none)
    (hm : Library.math.function? name = some f) : s.resolve? name = some (.math, f) := by
  simp [resolve?, FunctionScope.all, library, hb, hm]

private theorem resolve?_of_owns_eq_false (h : Library.owns name = false) :
    s.resolve? name =
      ((s.functions.get? name).bind ClientEntry.callable?).map (s.library .client, ·) := by
  obtain ⟨hb, hm⟩ : Library.builtin.function? name = none ∧ Library.math.function? name = none := by
    simpa [Library.owns] using h
  simp [resolve?, FunctionScope.all, library, hb, hm, Library.client]

end

/-- Whether two settings differ at most in what the client enters under names that a fixed library
owns. -/
structure Alike (s t : Setting) : Prop where
  label : s.label = t.label
  instanceVariables : s.instanceVariables = t.instanceVariables
  declared : s.declared = t.declared
  owner : s.owner = t.owner
  strict : s.strict = t.strict
  functions : ∀ name, Library.owns name = false → s.functions.get? name = t.functions.get? name
  specs : ∀ name, Library.owns name = false → s.specs.get? name = t.specs.get? name

namespace Alike

private theorem trans {s t u : Setting} (hst : s.Alike t) (htu : t.Alike u) : s.Alike u where
  label := hst.label.trans htu.label
  instanceVariables := hst.instanceVariables.trans htu.instanceVariables
  declared := hst.declared.trans htu.declared
  owner := hst.owner.trans htu.owner
  strict := hst.strict.trans htu.strict
  functions n hn := (hst.functions n hn).trans (htu.functions n hn)
  specs n hn := (hst.specs n hn).trans (htu.specs n hn)

section

variable {name : String} (s : Setting)

private theorem setFunction (hown : Library.owns name = true) (f : ClientEntry) :
    s.Alike (s.setFunction name f) := by
  refine ⟨rfl, rfl, rfl, rfl, rfl, fun n hn => ?_, fun _ _ => rfl⟩
  rw [Setting.setFunction, Table.get?_insert, if_neg (Library.ne_of_owns hown hn)]

private theorem dropFunction (hown : Library.owns name = true) : s.Alike (s.dropFunction name) := by
  refine ⟨rfl, rfl, rfl, rfl, rfl, fun n hn => ?_, fun _ _ => rfl⟩
  rw [Setting.dropFunction, Table.get?_erase, if_neg (Library.ne_of_owns hown hn)]

private theorem setSpec (hown : Library.owns name = true) (spec : FunctionSpec) :
    s.Alike (s.setSpec name spec) := by
  refine ⟨rfl, rfl, rfl, rfl, rfl, fun _ _ => rfl, fun n hn => ?_⟩
  rw [Setting.setSpec, Table.get?_insert, if_neg (Library.ne_of_owns hown hn)]

end

variable {s t : Setting} (h : s.Alike t)
include h

private theorem resolve?_cases (name : String) :
    (s.resolve? name = none ∧ t.resolve? name = none) ∨
      ∃ lib lib' f, s.resolve? name = some (lib, f) ∧ t.resolve? name = some (lib', f) ∧
        lib.scope = lib'.scope ∧ lib.spec? name = lib'.spec? name := by
  cases hb : Library.builtin.function? name with
  | some f =>
    exact .inr ⟨_, _, f, s.resolve?_of_builtin hb, t.resolve?_of_builtin hb, rfl, rfl⟩
  | none =>
    cases hm : Library.math.function? name with
    | some f =>
      exact .inr ⟨_, _, f, s.resolve?_of_math hb hm, t.resolve?_of_math hb hm, rfl, rfl⟩
    | none =>
      have howns : Library.owns name = false := by simp [Library.owns, hb, hm]
      rw [s.resolve?_of_owns_eq_false howns, t.resolve?_of_owns_eq_false howns,
        h.functions name howns]
      cases (t.functions.get? name).bind ClientEntry.callable? with
      | none => exact .inl ⟨rfl, rfl⟩
      | some f => exact .inr ⟨_, _, f, rfl, rfl, rfl, h.specs name howns⟩

private theorem argumentFault?_eq {lib lib' : Library} {name : String}
    (hspec : lib.spec? name = lib'.spec? name) (n : Nat) :
    s.argumentFault? lib name n = t.argumentFault? lib' name n := by
  rw [argumentFault?, argumentFault?, hspec, h.strict]

private theorem callFault?_eq (name : String) (n : Nat) :
    s.callFault? name n = t.callFault? name n := by
  unfold callFault?
  obtain ⟨hs, ht⟩ | ⟨lib, lib', f, hs, ht, -, hspec⟩ := h.resolve?_cases name
  · rw [hs, ht]
  · rw [hs, ht]
    exact h.argumentFault?_eq hspec n

private theorem callsRandom_eq (name : String) : s.callsRandom name = t.callsRandom name := by
  unfold callsRandom
  obtain ⟨hs, ht⟩ | ⟨lib, lib', f, hs, ht, -, hspec⟩ := h.resolve?_cases name
  · rw [hs, ht]
  · rw [hs, ht]
    simp only [Library.isRandom, hspec]

private theorem callCode_eq (name : String) (args : List Code) :
    s.callCode name args = t.callCode name args := by
  unfold callCode
  obtain ⟨hs, ht⟩ | ⟨lib, lib', f, hs, ht, hscope, -⟩ := h.resolve?_cases name
  · rw [hs, ht]
  · rw [hs, ht]
    simp only [hscope]

private theorem variableCode_eq (name : String) : s.variableCode name = t.variableCode name := by
  simp only [variableCode, Walk.variableCode?, h.declared, h.instanceVariables]

private theorem knows_eq (name : String) : s.knows name = t.knows name := by
  simp only [knows, h.declared, h.instanceVariables]

private theorem code_eq (e : Expression) : e.code s = e.code t := by
  induction e with
  | literal v => rfl
  | identifier name => exact h.variableCode_eq name
  | call name args ih =>
    rw [Expression.code, Expression.code, Expression.codeAll_eq_map, Expression.codeAll_eq_map,
      List.map_congr_left ih]
    exact h.callCode_eq name _
  | unary op x ih => rw [Expression.code, Expression.code, ih]
  | binary op l r ihl ihr => rw [Expression.code, Expression.code, ihl, ihr]
  | foreign v => rfl

private theorem eventFault?_eq : s.eventFault? = t.eventFault? := by
  funext x
  cases x with
  | enter name => rfl
  | check path x =>
    cases x with
    | call name args => exact h.callFault?_eq name args.length
    | _ => rfl

private theorem outcome_eq {α : Type} (events : List Event) (a : α) :
    s.outcome events a = t.outcome events a := by
  rw [outcome, outcome, firstFault?, firstFault?, h.eventFault?_eq]

private theorem reached_eq (events : List Event) : s.reached events = t.reached events := by
  rw [reached, reached, h.eventFault?_eq]

private theorem map_dependencies_eq {β : Type} (view : Dependency → β)
    (hview : ∀ path x, view (s.dependencyOn path x) = view (t.dependencyOn path x))
    (events : List Event) :
    (events.flatMap s.eventDependencies).map view =
      (events.flatMap t.eventDependencies).map view := by
  have hevent (x : Event) : (s.eventDependencies x).map view = (t.eventDependencies x).map view := by
    cases x with
    | enter name => rfl
    | check path x =>
      cases x with
      | identifier name =>
        rw [eventDependencies, eventDependencies, h.knows_eq]
        split
        · rfl
        · exact congrArg ([·]) (hview path _)
      | call name args =>
        rw [eventDependencies, eventDependencies, h.callsRandom_eq]
        split
        · exact congrArg ([·]) (hview path _)
        · rfl
      | _ => rfl
  simp only [List.map_flatMap, hevent]

private theorem isAggregate_eq (hown : ∀ name, Library.owns name = true →
    s.isAggregate name = t.isAggregate name) : s.isAggregate = t.isAggregate := by
  funext name
  cases howns : Library.owns name with
  | true => exact hown name howns
  | false => rw [isAggregate, isAggregate, h.specs name howns]

private theorem restart_eq (p : Pass) : p.restart s = p.restart t := by
  rw [Pass.restart, Pass.restart, h.owner]

private theorem untagged_follow_eq (p : Pass) (events : List Event) :
    (p.follow s events).untagged = (p.follow t events).untagged := by
  have htags (path : List String) (x : Endpoint) :
      (s.dependencyOn path x).untagged = (t.dependencyOn path x).untagged := by
    simp only [dependencyOn, Dependency.untagged, h.owner, h.label]
  rw [Pass.follow, Pass.follow, Pass.untagged_note, Pass.untagged_note, h.map_dependencies_eq _ htags]

private theorem follow_eq (hagg : s.isAggregate = t.isAggregate) (p : Pass) (events : List Event) :
    p.follow s events = p.follow t events := by
  have hdependency (path : List String) (x : Endpoint) :
      s.dependencyOn path x = t.dependencyOn path x := by
    simp only [dependencyOn, aggregatePositions, h.owner, h.label, hagg]
  have hcall : s.eventCall? = t.eventCall? := by
    funext x
    cases x with
    | enter name => simp only [eventCall?, hagg]
    | check path x => rfl
  have hfound := h.map_dependencies_eq id hdependency events
  rw [List.map_id, List.map_id] at hfound
  rw [Pass.follow, Pass.follow, hfound, hcall]

end Alike

end Setting

namespace Walk

variable {α β : Type} {tags : Prop} {w w' : Walk α} {f f' : α → Walk β}

/-- Whether two walks with the same random numbers end in the same way, draw alike, note the same
dependencies but for their tags, and do nothing else for good. If tags are compared too and the same
calls are open, then nothing differs that is noted. -/
def Parallel (tags : Prop) (w w' : Walk α) : Prop :=
  ∀ p q : Pass, p.draws = q.draws → (tags → p.openCalls = q.openCalls) →
    ∃ o ds es a b draws, w p = lift o { p.note ds a with draws := draws } ∧
      w' q = lift o { q.note es b with draws := draws } ∧
      ds.map Dependency.untagged = es.map Dependency.untagged ∧ (tags → ds = es ∧ a = b)

private theorem parallel_lift (o : Except Fault α) : Parallel tags (lift o) (lift o) := by
  intro p q hdraws _
  refine ⟨o, [], [], false, false, p.draws, ?_, ?_, rfl, fun _ => ⟨rfl, rfl⟩⟩
  · rw [p.note_nil]
  · rw [q.note_nil, hdraws]

private theorem parallel_pure (a : α) : Parallel tags (pure a) (pure a) :=
  parallel_lift (.ok a)

private theorem parallel_throw (e : Fault) : Parallel tags (throw e : Walk α) (throw e) :=
  parallel_lift (.error e)

private theorem Parallel.bind (hw : Parallel tags w w') (hf : ∀ a, Parallel tags (f a) (f' a)) :
    Parallel tags (w >>= f) (w' >>= f') := by
  intro p q hdraws hcalls
  obtain ⟨o, ds, es, a, b, draws, hp, hq, hds, htags⟩ := hw p q hdraws hcalls
  cases o with
  | error e => exact ⟨.error e, ds, es, a, b, draws, bind_of_error hp, bind_of_error hq, hds, htags⟩
  | ok x =>
    obtain ⟨o, ds', es', a', b', draws', hp', hq', hds', htags'⟩ :=
      hf x { p.note ds a with draws := draws } { q.note es b with draws := draws } rfl hcalls
    refine ⟨o, ds ++ ds', es ++ es', a || a', b || b', draws', ?_, ?_, ?_, ?_⟩
    · rw [bind_of_ok hp, hp']
      simp [Pass.note, Bool.or_assoc]
    · rw [bind_of_ok hq, hq']
      simp [Pass.note, Bool.or_assoc]
    · rw [List.map_append, List.map_append, hds, hds']
    · intro h
      obtain ⟨rfl, rfl⟩ := htags h
      obtain ⟨rfl, rfl⟩ := htags' h
      exact ⟨rfl, rfl⟩

variable {s t : Setting} {env : Scope}

private theorem Parallel.inCall (hagg : tags → s.isAggregate = t.isAggregate) {name : String}
    (hw : Parallel tags w w') : Parallel tags (inCall s name w) (inCall t name w') := by
  intro p q hdraws hcalls
  have hopened (h : tags) : (p.beginCall ⟨name, s.isAggregate name⟩).openCalls =
      (q.beginCall ⟨name, t.isAggregate name⟩).openCalls := by
    rw [Pass.beginCall, Pass.beginCall, hagg h, hcalls h]
  obtain ⟨o, ds, es, a, b, draws, hp, hq, hds, htags⟩ :=
    hw (p.beginCall ⟨name, s.isAggregate name⟩) (q.beginCall ⟨name, t.isAggregate name⟩) hdraws hopened
  refine ⟨o, ds, es, s.isAggregate name || a, t.isAggregate name || b, draws, inCall_of_lift hp,
    inCall_of_lift hq, hds, ?_⟩
  intro h
  obtain ⟨rfl, rfl⟩ := htags h
  exact ⟨rfl, by rw [hagg h]⟩

private theorem parallel_evaluateAll {es : List Expression}
    (ih : ∀ e ∈ es, Parallel tags (evaluate s env e) (evaluate t env e)) :
    Parallel tags (evaluateAll s env es) (evaluateAll t env es) := by
  induction es with
  | nil =>
    rw [evaluateAll, evaluateAll]
    exact parallel_pure []
  | cons e es ihs =>
    have htail := ihs fun x hx => ih x (by simp [hx])
    rw [evaluateAll, evaluateAll]
    exact (ih e (by simp)).bind fun v => htail.bind fun vs => parallel_pure _

section Alike

variable (h : s.Alike t)
include h

private theorem parallel_evaluateVariable (name : String) :
    Parallel tags (evaluateVariable s env name) (evaluateVariable t env name) := by
  have hvalue : variableValue? s env name = variableValue? t env name := by
    rw [variableValue?, variableValue?, h.instanceVariables]
  rw [evaluateVariable, evaluateVariable, hvalue]
  split
  · exact parallel_pure _
  · exact parallel_throw _

private theorem parallel_evaluateFunction (name : String) (args : List Value) :
    Parallel tags (evaluateFunction s name args none) (evaluateFunction t name args none) := by
  intro p q hdraws hcalls
  rw [evaluateFunction_eq, evaluateFunction_eq]
  obtain ⟨hs, ht⟩ | ⟨lib, lib', f, hs, ht, -, hspec⟩ := h.resolve?_cases name
  · rw [hs, ht]
    exact parallel_throw _ p q hdraws hcalls
  · rw [hs, ht]
    dsimp only
    rw [h.argumentFault?_eq hspec]
    cases t.argumentFault? lib' name args.length with
    | some e => exact parallel_throw e p q hdraws hcalls
    | none =>
      have hrandom : lib.isRandom name = lib'.isRandom name := by
        rw [Library.isRandom, Library.isRandom, hspec]
      have htags : (p.complete s (.on .random)).untagged = (q.complete t (.on .random)).untagged := by
        simp only [Pass.complete, Dependency.untagged, h.owner, h.label]
      have hsame (hcalls : p.openCalls = q.openCalls) :
          p.complete s (.on .random) = q.complete t (.on .random) := by
        simp only [Pass.complete, Pass.aggregates, hcalls, h.owner, h.label]
      dsimp only
      rw [hrandom, ofRun_call, ofRun_call, Pass.draws_note, Pass.draws_note, hdraws]
      cases lib'.isRandom name with
      | true =>
        refine ⟨_, [p.complete s (.on .random)], [q.complete t (.on .random)], false, false, _,
          rfl, rfl, congrArg ([·]) htags, fun htag => ⟨congrArg ([·]) (hsame (hcalls htag)), rfl⟩⟩
      | false =>
        exact ⟨_, [], [], false, false, _, rfl, rfl, rfl, fun _ => ⟨rfl, rfl⟩⟩

private theorem parallel_evaluate (hagg : tags → s.isAggregate = t.isAggregate) (e : Expression) :
    Parallel tags (evaluate s env e) (evaluate t env e) := by
  induction e with
  | literal v =>
    rw [evaluate, evaluate]
    exact parallel_pure v
  | identifier name =>
    rw [evaluate, evaluate]
    exact parallel_evaluateVariable h name
  | call name args ih =>
    rw [evaluate, evaluate]
    exact ((parallel_evaluateAll ih).inCall hagg).bind fun vs =>
      parallel_evaluateFunction h name vs
  | unary op x ih =>
    rw [evaluate, evaluate]
    split
    · exact parallel_throw _
    · exact ih.bind fun v => parallel_lift _
  | binary op l r ihl ihr =>
    rw [evaluate, evaluate]
    split
    · exact parallel_throw _
    · refine ihl.bind fun v => (parallel_lift _).bind fun decided => ?_
      split
      · exact parallel_pure v
      · exact ihr.bind fun w => parallel_lift _
  | foreign v =>
    rw [evaluate, evaluate]
    exact parallel_throw _

end Alike

end Walk

namespace Context

def under (t : Setting) (c : Context) : Context :=
  { c with setting := t }

variable {c : Context} {t : Setting} {e : Expression} {env : Scope}

private theorem compile_under (h : c.setting.Alike t) (e : Expression) :
    ((c.under t).compile e).1 = (c.compile e).1 ∧
      ((c.under t).compile e).2.untagged = ((c.compile e).2.under t).untagged ∧
      (c.setting.isAggregate = t.isAggregate →
        ((c.under t).compile e).2 = (c.compile e).2.under t) := by
  rw [compile_eq_outcome, compile_eq_outcome]
  dsimp only [under]
  rw [← h.code_eq, ← h.outcome_eq, ← h.reached_eq, ← h.restart_eq]
  refine ⟨rfl, ?_, fun hagg => ?_⟩
  · simp only [untagged, h.untagged_follow_eq]
  · rw [h.follow_eq hagg]

private theorem evaluate_under (h : c.setting.Alike t) (e : Expression) (env : Scope) :
    ((c.under t).evaluate e env).1 = (c.evaluate e env).1 ∧
      ((c.under t).evaluate e env).2.untagged = ((c.evaluate e env).2.under t).untagged ∧
      (c.setting.isAggregate = t.isAggregate →
        ((c.under t).evaluate e env).2 = (c.evaluate e env).2.under t) := by
  have hparallel : Walk.Parallel (c.setting.isAggregate = t.isAggregate)
      (Walk.evaluate c.setting env e) (Walk.evaluate t env e) :=
    Walk.parallel_evaluate h id e
  obtain ⟨o, ds, es, a, b, draws, hc, ht, hds, htags⟩ :=
    hparallel { c.pass with found := [] } { c.pass with found := [] } rfl fun _ => rfl
  rw [evaluate_of_lift hc, evaluate_of_lift (d := c.under t) ht]
  refine ⟨rfl, ?_, fun hagg => ?_⟩
  · simp only [untagged, under, afterEvaluation, Pass.untagged, Pass.note, List.nil_append,
      List.map_append, Delivery.map_untagged_register, hds]
  · obtain ⟨rfl, -⟩ := htags hagg
    rfl

private theorem independents_of_untagged {d : Context} (h : d.untagged = c.untagged) :
    d.pass.found.map Dependency.independent = c.pass.found.map Dependency.independent ∧
      d.evaluated.map Dependency.independent = c.evaluated.map Dependency.independent := by
  have hview (ds : List Dependency) :
      ds.map Dependency.independent = (ds.map Dependency.untagged).map Dependency.independent := by
    rw [List.map_map]
    rfl
  have hfound : d.pass.found.map Dependency.untagged = c.pass.found.map Dependency.untagged :=
    congrArg (·.pass.found) h
  have hevaluated : d.evaluated.map Dependency.untagged = c.evaluated.map Dependency.untagged :=
    congrArg (·.evaluated) h
  constructor
  · rw [hview d.pass.found, hfound, ← hview]
  · rw [hview d.evaluated, hevaluated, ← hview]

/-- What the client enters under names that a fixed library owns changes neither how an expression
is compiled nor how it is evaluated, which random numbers are drawn, and what is found in which
order. It changes nothing in the contexts afterwards but tags and flags, and not even these if the
owned names are aggregates in both settings or in none. -/
theorem compile_evaluate_of_alike (h : c.setting.Alike t) (e : Expression) (env : Scope) :
    let d := c.under t
    ((d.compile e).1 = (c.compile e).1 ∧
        (d.compile e).2.pass.found.map Dependency.independent =
          (c.compile e).2.pass.found.map Dependency.independent ∧
        (d.compile e).2.untagged = ((c.compile e).2.under t).untagged) ∧
      ((d.evaluate e env).1 = (c.evaluate e env).1 ∧
        (d.evaluate e env).2.pass.draws = (c.evaluate e env).2.pass.draws ∧
        (d.evaluate e env).2.evaluated.map Dependency.independent =
          (c.evaluate e env).2.evaluated.map Dependency.independent ∧
        (d.evaluate e env).2.untagged = ((c.evaluate e env).2.under t).untagged) ∧
      ((∀ name, Library.owns name = true → c.setting.isAggregate name = t.isAggregate name) →
        (d.compile e).2 = (c.compile e).2.under t ∧
          (d.evaluate e env).2 = (c.evaluate e env).2.under t) := by
  intro d
  obtain ⟨hcode, hcompiled, hcompile⟩ := compile_under h e
  obtain ⟨hvalue, hevaluated, hevaluate⟩ := evaluate_under h e env
  refine ⟨⟨hcode, (independents_of_untagged hcompiled).1, hcompiled⟩,
    ⟨hvalue, congrArg (·.pass.draws) hevaluated, (independents_of_untagged hevaluated).2, hevaluated⟩,
    fun hown => ?_⟩
  have hagg := h.isAggregate_eq hown
  exact ⟨hcompile hagg, hevaluate hagg⟩

/-- A client makes a built-in function an aggregate, which shows in a tag and in nothing else. A
client's function of a built-in name does not show at all. -/
theorem compile_evaluate_of_alike_month :
    let s := (Setting.bare "c").setFunction "ln" (.function fun _ => .ok (.int 1))
    let spec : FunctionSpec := ⟨7, none, .random, true, true, by simp⟩
    let t := (s.dropFunction "ln").setSpec "month" spec
    let u := s.setFunction "random" (.value .null)
    let c := Context.new s (.cycle [])
    let e : Expression := .binary "&" (.call "month" [.call "random" []]) (.identifier "u")
    let under (calls : List Int) : Dependency := ⟨.random, none, some calls, some "c"⟩
    let undefined : Dependency := ⟨.undefined "u", none, some [], some "c"⟩
    s.Alike t ∧ s.Alike u ∧
      (c.compile e).2.pass.found = [under [], undefined] ∧
      ((c.under t).compile e).2.pass.found = [under [0], undefined] ∧
      ((c.under t).compile e).1 = (c.compile e).1 ∧
      ((c.under t).evaluate e .empty).1 = (c.evaluate e .empty).1 ∧
      ((c.under t).evaluate e .empty).2.pass.draws = (c.evaluate e .empty).2.pass.draws ∧
      (∀ name, Library.owns name = true → s.isAggregate name = u.isAggregate name) ∧
      ((c.under u).compile e).2 = (c.compile e).2.under u := by
  intro s spec t u c e under undefined
  have ht : s.Alike t :=
    (Setting.Alike.dropFunction s (by rfl)).trans (Setting.Alike.setSpec _ (by rfl) spec)
  have hu : s.Alike u := Setting.Alike.setFunction s (by rfl) _
  have hown : ∀ name, Library.owns name = true → s.isAggregate name = u.isAggregate name :=
    fun _ _ => rfl
  obtain ⟨⟨hcode, -⟩, ⟨hvalue, hdraws, -⟩, -⟩ :=
    compile_evaluate_of_alike (c := c) ht e .empty
  obtain ⟨hsame, -⟩ := (compile_evaluate_of_alike (c := c) hu e .empty).2.2 hown
  exact ⟨ht, hu, rfl, rfl, hcode, hvalue, hdraws, hown, hsame⟩

end Context

end FormulaEngine

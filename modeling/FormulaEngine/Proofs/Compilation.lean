import FormulaEngine.Context
import FormulaEngine.Proofs.Expression
import FormulaEngine.Proofs.Walk
import Mathlib.Data.List.Induction
/-!
# What a compilation finds

Compiling an expression succeeds exactly if no node of it is at fault. Then the code is a function
of the tables and the expression alone, and the dependencies found are those that `dependencies`
lists, whatever happened in the context before.
-/
namespace FormulaEngine

def Library.isRandom (lib : Library) (name : String) : Bool :=
  (lib.spec? name).any FunctionSpec.isRandom

namespace Setting

/-- What is wrong with a number of arguments for a function of a library, if anything is. -/
def argumentFault? (s : Setting) (lib : Library) (name : String) (n : Nat) : Option Fault :=
  match lib.spec? name with
  | none => none
  | some spec =>
    (Walk.brokenBound? spec s.strict n).map fun b => .formula (.arguments name spec b)

/-- What is wrong with a call of a name with a number of arguments, if anything is. -/
def callFault? (s : Setting) (name : String) (n : Nat) : Option Fault :=
  match s.resolve? name with
  | none => none
  | some (lib, _) => s.argumentFault? lib name n

/-- What keeps a node by itself from being compiled, if anything does. -/
def nodeFault? (s : Setting) : Expression → Option Fault
  | .literal _ => none
  | .identifier _ => none
  | .call name args => s.callFault? name args.length
  | .unary op _ =>
    if (UnaryOperator.ofSymbol? op).isSome then none else some (.unsupportedOperator op)
  | .binary op _ _ =>
    if (BinaryOperator.ofSymbol? op).isSome then none else some (.unsupportedOperator op)
  | .foreign v => some (.notExpression .compile v.kind)

theorem nodeFault?_unary_eq_none_iff {s : Setting} {op : String} {x : Expression} :
    s.nodeFault? (.unary op x) = none ↔ ∃ o, UnaryOperator.ofSymbol? op = some o := by
  simp [nodeFault?, Option.isSome_iff_exists]

theorem nodeFault?_binary_eq_none_iff {s : Setting} {op : String} {l r : Expression} :
    s.nodeFault? (.binary op l r) = none ↔ ∃ o, BinaryOperator.ofSymbol? op = some o := by
  simp [nodeFault?, Option.isSome_iff_exists]

def variableCode (s : Setting) (name : String) : Code :=
  (Walk.variableCode? s name).getD (.deferred (.variable name))

def callCode (s : Setting) (name : String) (args : List Code) : Code :=
  match s.resolve? name with
  | none => .deferred (.function name)
  | some (lib, _) => .call lib.scope name args

def knows (s : Setting) (name : String) : Bool :=
  (constant? name).isSome || s.declared.contains name ||
    (s.instanceVariables.value? name).isSome

def callsRandom (s : Setting) (name : String) : Bool :=
  match s.resolve? name with
  | none => false
  | some (lib, _) => lib.isRandom name

def isAggregateCall (s : Setting) : Expression → Bool
  | .call name _ => s.isAggregate name
  | _ => false

def aggregatePositions (s : Setting) (path : List String) : List Nat :=
  (List.range path.length).filter fun i => path[i]?.any s.isAggregate

/-- The dependency on something that is read inside the calls of a path. -/
def dependencyOn (s : Setting) (path : List String) (x : Endpoint) : Dependency where
  independent := x
  dependent := s.owner
  aggregates := some ((s.aggregatePositions path).map Int.ofNat)
  context := some s.label

def openCalls (s : Setting) (path : List String) : List OpenCall :=
  (path.map fun name => ⟨name, s.isAggregate name⟩).reverse

end Setting

namespace Expression

mutual

/-- The code of an expression without faults. -/
def code (s : Setting) : Expression → Code
  | .literal v => .constant v
  | .identifier name => s.variableCode name
  | .call name args => s.callCode name (codeAll s args)
  | .unary op x => .operation op [code s x]
  | .binary op l r => .operation op [code s l, code s r]
  | .foreign v => .constant v

def codeAll (s : Setting) : List Expression → List Code
  | [] => []
  | e :: es => code s e :: codeAll s es

end

mutual

/-- The dependencies of an expression that stands inside the calls of a path. The arguments of a
call stand inside it, and what the call itself depends on does not. -/
def dependencies (s : Setting) (path : List String) : Expression → List Dependency
  | .literal _ => []
  | .identifier name => if s.knows name then [] else [s.dependencyOn path (.undefined name)]
  | .call name args =>
    dependenciesAll s (path ++ [name]) args ++
      if s.callsRandom name then [s.dependencyOn path .random] else []
  | .unary _ x => dependencies s path x
  | .binary _ l r => dependencies s path l ++ dependencies s path r
  | .foreign _ => []

def dependenciesAll (s : Setting) (path : List String) : List Expression → List Dependency
  | [] => []
  | e :: es => dependencies s path e ++ dependenciesAll s path es

end

theorem codeAll_eq_map (s : Setting) (es : List Expression) : codeAll s es = es.map (code s) := by
  induction es with
  | nil => rfl
  | cons e es ih => rw [codeAll, ih, List.map_cons]

theorem length_codeAll (s : Setting) (es : List Expression) :
    (codeAll s es).length = es.length := by
  rw [codeAll_eq_map, List.length_map]

theorem mem_dependenciesAll {s : Setting} {path : List String} {es : List Expression}
    {d : Dependency} :
    d ∈ dependenciesAll s path es ↔ ∃ e ∈ es, d ∈ e.dependencies s path := by
  induction es with
  | nil => simp [dependenciesAll]
  | cons e es ih => simp [dependenciesAll, ih]

end Expression

namespace Setting

private theorem aggregatePositions_append_singleton (s : Setting) (path : List String)
    (name : String) :
    s.aggregatePositions (path ++ [name]) =
      s.aggregatePositions path ++ if s.isAggregate name then [path.length] else [] := by
  have hpath : ∀ i ∈ List.range path.length,
      (path ++ [name])[i]?.any s.isAggregate = path[i]?.any s.isAggregate := by
    intro i hi
    rw [List.getElem?_append_left (List.mem_range.mp hi)]
  simp only [aggregatePositions, List.length_append, List.length_singleton, List.range_succ,
    List.filter_append, List.filter_congr hpath]
  congr 1
  cases h : s.isAggregate name <;> simp [List.filter, h]

theorem openCalls_append_singleton (s : Setting) (path : List String) (name : String) :
    s.openCalls (path ++ [name]) = ⟨name, s.isAggregate name⟩ :: s.openCalls path := by
  simp [openCalls]

theorem aggregatePositions_openCalls (s : Setting) (path : List String) :
    Pass.aggregatePositions (s.openCalls path) = s.aggregatePositions path := by
  induction path using List.reverseRecOn with
  | nil => rfl
  | append_singleton path name ih =>
    rw [aggregatePositions_append_singleton, ← ih]
    simp only [Pass.aggregatePositions, openCalls_append_singleton, List.reverse_cons,
      List.zipIdx_append, List.filter_append, List.map_append]
    congr 1
    cases s.isAggregate name <;> simp [openCalls, List.filter]

theorem knows_eq_false_iff {s : Setting} {name : String} :
    s.knows name = false ↔
      constant? name = none ∧ name ∉ s.declared ∧ s.instanceVariables.value? name = none := by
  simp [knows, and_assoc]

private theorem isSome_variableCode? (s : Setting) (name : String) :
    (Walk.variableCode? s name).isSome = s.knows name := by
  unfold Walk.variableCode? knows
  cases constant? name with
  | some v => simp
  | none =>
    cases s.declared.contains name with
    | true => simp
    | false => cases s.instanceVariables.value? name <;> simp

section

variable {s : Setting} {name : String}

theorem variableCode_of_constant {v : Value} (h : constant? name = some v) :
    s.variableCode name = .constant v := by
  simp [variableCode, Walk.variableCode?, h]

theorem variableCode_of_declared (hc : constant? name = none) (hd : name ∈ s.declared) :
    s.variableCode name = .read .environment name := by
  simp [variableCode, Walk.variableCode?, hc, hd]

theorem variableCode_of_value {v : Value} (hc : constant? name = none) (hd : name ∉ s.declared)
    (hv : s.instanceVariables.value? name = some v) : s.variableCode name = .read .own name := by
  simp [variableCode, Walk.variableCode?, hc, hd, hv]

theorem variableCode_of_unknown (h : s.knows name = false) :
    s.variableCode name = .deferred (.variable name) := by
  obtain ⟨hc, hd, hv⟩ := knows_eq_false_iff.mp h
  simp [variableCode, Walk.variableCode?, hc, hd, hv]

end

end Setting

theorem Pass.complete_on {p : Pass} {s : Setting} {path : List String}
    (hp : p.openCalls = s.openCalls path) (x : Endpoint) :
    p.complete s (.on x) = s.dependencyOn path x := by
  simp only [complete, Dependency.on, Setting.dependencyOn, aggregates, hp,
    Setting.aggregatePositions_openCalls, Option.none_or]

namespace Walk

variable {s : Setting}

theorem compileVariable_eq {p : Pass} {path : List String} (hp : p.openCalls = s.openCalls path)
    (name : String) :
    compileVariable s name p =
      .ok (s.variableCode name)
        (p.note (if s.knows name then [] else [s.dependencyOn path (.undefined name)]) false) := by
  unfold compileVariable Setting.variableCode
  rw [← s.isSome_variableCode? name]
  cases variableCode? s name with
  | some c => simp [pure, EStateM.pure]
  | none =>
    dsimp only
    rw [bind_of_ok (register_eq ..), Pass.complete_on hp]
    rfl

private theorem checkCall_eq (name : String) (n : Nat) (lib : Library) (p : Pass) :
    checkCall s name n lib none p =
      match s.argumentFault? lib name n with
      | some f => .error f p
      | none =>
        .ok () (p.note (if lib.isRandom name then [p.complete s (.on .random)] else []) false) := by
  unfold checkCall Setting.argumentFault? Library.isRandom
  cases lib.spec? name with
  | none => simp [pure, EStateM.pure]
  | some spec =>
    dsimp only
    cases brokenBound? spec s.strict n with
    | some b => rfl
    | none =>
      cases hrandom : spec.isRandom with
      | true =>
        simp only [if_true, Option.any_some, hrandom, Option.map_none]
        rw [bind_of_ok (register_eq ..)]
        rfl
      | false => simp [hrandom, pure, EStateM.pure]

theorem compileFunction_eq (name : String) (args : List Code) (p : Pass) :
    compileFunction s name args none p =
      match s.callFault? name args.length with
      | some f => .error f p
      | none =>
        .ok (s.callCode name args)
          (p.note (if s.callsRandom name then [p.complete s (.on .random)] else []) false) := by
  unfold compileFunction Setting.callFault? Setting.callCode Setting.callsRandom
  cases s.resolve? name with
  | none => simp [pure, EStateM.pure]
  | some r =>
    obtain ⟨lib, f⟩ := r
    dsimp only
    have hcheck := checkCall_eq (s := s) name args.length lib p
    cases hfault : s.argumentFault? lib name args.length with
    | some f =>
      rw [hfault] at hcheck
      rw [bind_of_error hcheck]
    | none =>
      rw [hfault] at hcheck
      rw [bind_of_ok hcheck]
      rfl

theorem evaluateFunction_eq (name : String) (args : List Value) (p : Pass) :
    evaluateFunction s name args none p =
      match s.resolve? name with
      | none => .error (.formula (.function name)) p
      | some (lib, f) =>
        match s.argumentFault? lib name args.length with
        | some e => .error e p
        | none =>
          ofRun (Run.call f args)
            (p.note (if lib.isRandom name then [p.complete s (.on .random)] else []) false) := by
  unfold evaluateFunction
  cases s.resolve? name with
  | none => rfl
  | some r =>
    obtain ⟨lib, f⟩ := r
    dsimp only
    have hcheck := checkCall_eq (s := s) name args.length lib p
    cases hfault : s.argumentFault? lib name args.length with
    | some e =>
      rw [hfault] at hcheck
      rw [bind_of_error hcheck]
    | none =>
      rw [hfault] at hcheck
      rw [bind_of_ok hcheck]

theorem evaluateFunction_of_resolve? {name : String} {lib : Library} {f : Callable}
    (hf : s.resolve? name = some (lib, f)) {args : List Value}
    (harity : s.callFault? name args.length = none) (p : Pass) :
    evaluateFunction s name args none p =
      ofRun (Run.call f args)
        (p.note (if lib.isRandom name then [p.complete s (.on .random)] else []) false) := by
  rw [Setting.callFault?, hf] at harity
  dsimp only at harity
  rw [evaluateFunction_eq, hf]
  dsimp only
  rw [harity]

private theorem compileAll_eq {es : List Expression}
    (ih : ∀ e ∈ es, ∀ (p : Pass) (path : List String), p.openCalls = s.openCalls path →
      compile s e p =
        .ok (e.code s) (p.note (e.dependencies s path) (e.nodes.any s.isAggregateCall)))
    (p : Pass) (path : List String) (hp : p.openCalls = s.openCalls path) :
    compileAll s es p =
      .ok (Expression.codeAll s es)
        (p.note (Expression.dependenciesAll s path es)
          ((Expression.nodesAll es).any s.isAggregateCall)) := by
  induction es generalizing p with
  | nil => simp [compileAll, pure, EStateM.pure, Expression.dependenciesAll, Expression.codeAll,
      Expression.nodesAll]
  | cons e es ihs =>
    have hhead := ih e (by simp) p path hp
    have htail := ihs (fun x hx => ih x (by simp [hx]))
      (p.note (e.dependencies s path) (e.nodes.any s.isAggregateCall)) hp
    rw [compileAll, bind_of_ok hhead, bind_of_ok htail, Pass.note_note, ← List.any_append]
    rfl

private theorem compile_eq {e : Expression} (h : ∀ x ∈ e.nodes, s.nodeFault? x = none) (p : Pass)
    (path : List String) (hp : p.openCalls = s.openCalls path) :
    compile s e p =
      .ok (e.code s) (p.note (e.dependencies s path) (e.nodes.any s.isAggregateCall)) := by
  induction e generalizing p path with
  | literal v => simp [compile, pure, EStateM.pure, Expression.code, Expression.dependencies,
      Expression.nodes, Setting.isAggregateCall]
  | identifier name =>
    rw [compile, compileVariable_eq hp]
    rfl
  | call name args ih =>
    obtain ⟨hcall, hargs⟩ := Expression.forall_nodes_call.mp h
    -- The arguments stand one call deeper; what they note stays when the call is closed.
    let opened := p.beginCall ⟨name, s.isAggregate name⟩
    have hopened : opened.openCalls = s.openCalls (path ++ [name]) := by
      rw [s.openCalls_append_singleton, ← hp]
      rfl
    have hall := compileAll_eq (fun a ha => ih a ha (hargs a ha)) opened _ hopened
    have hin := inCall_eq_ok_iff.mpr ⟨_, hall, rfl⟩
    rw [Pass.endCall_note_beginCall] at hin
    rw [compile, bind_of_ok hin, compileFunction_eq, Expression.length_codeAll]
    rw [Setting.nodeFault?] at hcall
    rw [hcall]
    dsimp only
    rw [Pass.complete_on (by simpa using hp), Pass.note_note, Bool.or_false]
    rfl
  | unary op x ih =>
    obtain ⟨hop, hx⟩ := Expression.forall_nodes_unary.mp h
    rw [compile]
    cases hsymbol : UnaryOperator.ofSymbol? op with
    | none => simp [Setting.nodeFault?, hsymbol] at hop
    | some o =>
      dsimp only
      rw [bind_of_ok (ih hx p path hp)]
      rfl
  | binary op l r ihl ihr =>
    obtain ⟨hop, hl, hr⟩ := Expression.forall_nodes_binary.mp h
    rw [compile]
    cases hsymbol : BinaryOperator.ofSymbol? op with
    | none => simp [Setting.nodeFault?, hsymbol] at hop
    | some o =>
      have hright := ihr hr (p.note (l.dependencies s path) (l.nodes.any s.isAggregateCall)) path hp
      dsimp only
      rw [bind_of_ok (ihl hl p path hp), bind_of_ok hright, Pass.note_note, ← List.any_append]
      rfl
  | foreign v => simp [Expression.nodes, Setting.nodeFault?] at h

theorem length_compileAll {es : List Expression} {codes : List Code} {p p' : Pass}
    (h : compileAll s es p = .ok codes p') : codes.length = es.length := by
  induction es generalizing codes p with
  | nil =>
    cases h
    rfl
  | cons e es ih =>
    rw [compileAll] at h
    obtain ⟨c, q, -, h⟩ := bind_eq_ok_iff.mp h
    obtain ⟨cs, q', hs, h⟩ := bind_eq_ok_iff.mp h
    cases h
    simp [ih hs]

private theorem compile_of_compileAll {es : List Expression} {codes : List Code} {p p' : Pass}
    (h : compileAll s es p = .ok codes p') : ∀ e ∈ es, ∃ c q q', compile s e q = .ok c q' := by
  induction es generalizing codes p p' with
  | nil => simp
  | cons e es ih =>
    rw [compileAll] at h
    obtain ⟨c, q, he, h⟩ := bind_eq_ok_iff.mp h
    obtain ⟨cs, q', hs, -⟩ := bind_eq_ok_iff.mp h
    rw [List.forall_mem_cons]
    exact ⟨⟨c, p, q, he⟩, ih hs⟩

private theorem nodeFault?_of_compile {e : Expression} {c : Code} {p p' : Pass}
    (h : compile s e p = .ok c p') : ∀ x ∈ e.nodes, s.nodeFault? x = none := by
  induction e generalizing c p p' with
  | literal v => simp [Expression.nodes, Setting.nodeFault?]
  | identifier name => simp [Expression.nodes, Setting.nodeFault?]
  | call name args ih =>
    rw [compile] at h
    obtain ⟨codes, q, hin, hcall⟩ := bind_eq_ok_iff.mp h
    obtain ⟨q', hall, -⟩ := inCall_eq_ok_iff.mp hin
    rw [Expression.forall_nodes_call]
    constructor
    · rw [compileFunction_eq, length_compileAll hall] at hcall
      rw [Setting.nodeFault?]
      cases hfault : s.callFault? name args.length with
      | none => rfl
      | some f => simp [hfault] at hcall
    · intro a ha
      obtain ⟨c, q, q', hc⟩ := compile_of_compileAll hall a ha
      exact ih a ha hc
  | unary op x ih =>
    rw [compile] at h
    cases hsymbol : UnaryOperator.ofSymbol? op with
    | none =>
      rw [hsymbol] at h
      cases h
    | some o =>
      rw [hsymbol] at h
      obtain ⟨c, q, hx, -⟩ := bind_eq_ok_iff.mp h
      rw [Expression.forall_nodes_unary]
      exact ⟨by simp [Setting.nodeFault?, hsymbol], ih hx⟩
  | binary op l r ihl ihr =>
    rw [compile] at h
    cases hsymbol : BinaryOperator.ofSymbol? op with
    | none =>
      rw [hsymbol] at h
      cases h
    | some o =>
      rw [hsymbol] at h
      obtain ⟨a, q, hl, h⟩ := bind_eq_ok_iff.mp h
      obtain ⟨b, q', hr, -⟩ := bind_eq_ok_iff.mp h
      rw [Expression.forall_nodes_binary]
      exact ⟨by simp [Setting.nodeFault?, hsymbol], ihl hl, ihr hr⟩
  | foreign v =>
    rw [compile] at h
    cases h

end Walk

namespace Context

/-- A compilation succeeds exactly if no node is at fault, and then code and context are told by the
tables and the expression. -/
theorem compile_eq_ok_iff {c c' : Context} {e : Expression} {code : Code} :
    c.compile e = (.ok code, c') ↔
      (∀ x ∈ e.nodes, c.setting.nodeFault? x = none) ∧ code = e.code c.setting ∧
        c' = { c with
          pass := (c.pass.restart c.setting).note (e.dependencies c.setting [])
            (e.nodes.any c.setting.isAggregateCall) } := by
  unfold Context.compile walk
  constructor
  · intro h
    cases hwalk : Walk.compile c.setting e c.willCompile.pass with
    | error f p => simp [hwalk] at h
    | ok a p =>
      have hfaults := Walk.nodeFault?_of_compile hwalk
      rw [Walk.compile_eq hfaults c.willCompile.pass [] rfl] at h
      cases h
      exact ⟨hfaults, rfl, rfl⟩
  · rintro ⟨hfaults, rfl, rfl⟩
    rw [Walk.compile_eq hfaults c.willCompile.pass [] rfl]
    rfl

/-- The dependencies that a compilation leaves are those of the expression outside of all calls, no
matter what the context did before. No call is open afterwards, and aggregates were met exactly if
the expression calls one. -/
theorem found_compile {c c' : Context} {e : Expression} {code : Code}
    (h : c.compile e = (.ok code, c')) :
    c'.pass.found = e.dependencies c.setting [] ∧ c'.pass.depth = 0 ∧
      (c'.pass.hasAggregates = true ↔
        ∃ name args, .call name args ∈ e.nodes ∧ c.setting.isAggregate name = true) := by
  obtain ⟨-, -, rfl⟩ := compile_eq_ok_iff.mp h
  refine ⟨rfl, rfl, ?_⟩
  change e.nodes.any c.setting.isAggregateCall = true ↔ _
  rw [List.any_eq_true]
  constructor
  · rintro ⟨x, hx, hagg⟩
    cases x with
    | call name args => exact ⟨name, args, hx, hagg⟩
    | _ => simp [Setting.isAggregateCall] at hagg
  · rintro ⟨name, args, hx, hagg⟩
    exact ⟨.call name args, hx, hagg⟩

/-- Positions count all calls of a path, the known ones and the unknown ones. -/
theorem found_compile_nested :
    let s := (Setting.bare "c").setSpec "total" ⟨1, none, .statistical, false, true, by simp⟩
    let c : Context := { Context.new s (.cycle []) with
      pass := (Pass.start (.cycle [])).beginCall ⟨"g", true⟩ }
    let e : Expression := .call "total" [.identifier "u", .call "random" [],
      .call "f" [.call "total" [.identifier "v"]]]
    c.compile e = (.ok (.deferred (.function "total")), (c.compile e).2) ∧
      (c.compile e).2.pass.found =
        [⟨.undefined "u", none, some [0], some "c"⟩, ⟨.random, none, some [0], some "c"⟩,
          ⟨.undefined "v", none, some [0, 2], some "c"⟩] ∧
      (c.compile e).2.pass.depth = 0 ∧ (c.compile e).2.pass.hasAggregates = true := by
  intro s c e
  have h : c.compile e = (.ok (.deferred (.function "total")), (c.compile e).2) := rfl
  obtain ⟨hfound, hdepth, haggregates⟩ := found_compile h
  have hcall : e ∈ e.nodes := .head _
  exact ⟨h, hfound, hdepth, haggregates.mpr ⟨"total", _, hcall, rfl⟩⟩

end Context

end FormulaEngine

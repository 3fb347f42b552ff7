import FormulaEngine.Proofs.Events
/-!
# What a compilation rejects

A compilation fails exactly if some node is no expression, has an operator that expressions do not
have, or calls a known function with a number of arguments that is refused. It does not matter where
the node stands. Of several such nodes the one that is checked first decides the fault, and what was
found before it stays.
-/
namespace FormulaEngine

def Arithmetic.symbols : List String := ["+", "-", "*", "/", "%", "^"]

def Comparison.symbols : List String := ["=", "==", "<>", "!=", ">", "<", ">=", "<="]

def Logical.symbols : List String := ["and", "&&", "or", "||"]

def BinaryOperator.symbols : List String :=
  Logical.symbols ++ Comparison.symbols ++ "&" :: Arithmetic.symbols

def UnaryOperator.symbols : List String := ["-", "+", "!", "not"]

section

variable {op : String}

private theorem Arithmetic.ofSymbol?_eq_none_iff : ofSymbol? op = none ↔ op ∉ symbols := by
  unfold ofSymbol?
  split <;> simp_all [symbols]

private theorem Comparison.ofSymbol?_eq_none_iff : ofSymbol? op = none ↔ op ∉ symbols := by
  unfold ofSymbol?
  split <;> simp_all [symbols]

private theorem Logical.ofSymbol?_eq_none_iff : ofSymbol? op = none ↔ op ∉ symbols := by
  unfold ofSymbol?
  split <;> simp_all [symbols]

private theorem UnaryOperator.ofSymbol?_eq_none_iff : ofSymbol? op = none ↔ op ∉ symbols := by
  unfold ofSymbol?
  split <;> simp_all [symbols]

private theorem BinaryOperator.ofSymbol?_eq_none_iff : ofSymbol? op = none ↔ op ∉ symbols := by
  rw [symbols, List.mem_append, List.mem_append, List.mem_cons, not_or, not_or, not_or,
    ← Logical.ofSymbol?_eq_none_iff, ← Comparison.ofSymbol?_eq_none_iff,
    ← Arithmetic.ofSymbol?_eq_none_iff, ofSymbol?]
  cases Logical.ofSymbol? op with
  | some o => simp
  | none =>
    cases Comparison.ofSymbol? op with
    | some o => simp
    | none => by_cases hjoin : op = "&" <;> simp [hjoin]

end

/-- Whether a number of arguments is refused: too few are always, too many only in strict settings.
-/
def FunctionSpec.Refuses (spec : FunctionSpec) (strict : Bool) (n : Nat) : Prop :=
  n < spec.least ∨ strict = true ∧ spec.accepts n = false

private theorem Walk.brokenBound?_eq_some_iff {spec : FunctionSpec} {strict : Bool} {n : Nat}
    {b : Bound} :
    brokenBound? spec strict n = some b ↔
      spec.Refuses strict n ∧ b = if n < spec.least then .least else .most := by
  unfold brokenBound? FunctionSpec.Refuses
  by_cases hleast : n < spec.least
  · rw [if_pos hleast, if_pos hleast, Option.some.injEq, and_iff_right (.inl hleast)]
    exact eq_comm
  · have haccepts : spec.accepts n = false ↔ spec.most.any (· < n) = true := by
      rw [FunctionSpec.accepts]
      cases spec.most <;> simp [Nat.le_of_not_lt hleast]
    rw [if_neg hleast, if_neg hleast, haccepts, or_iff_right hleast, ← Bool.and_eq_true]
    cases strict && spec.most.any (· < n) with
    | true => simp [eq_comm]
    | false => simp

namespace Setting

/-- Whether a node by itself is at fault, and what the fault is. -/
inductive AtFault (s : Setting) : Expression → Fault → Prop
  /-- A value stands where an expression should. -/
  | foreign (v : Value) : AtFault s (.foreign v) (.notExpression .compile v.kind)
  | unary {op : String} (h : op ∉ UnaryOperator.symbols) (x : Expression) :
      AtFault s (.unary op x) (.unsupportedOperator op)
  | binary {op : String} (h : op ∉ BinaryOperator.symbols) (l r : Expression) :
      AtFault s (.binary op l r) (.unsupportedOperator op)
  /-- The first library that has the function specifies it and refuses the number of arguments. -/
  | call {name : String} {args : List Expression} {lib : Library} {f : Callable}
      {spec : FunctionSpec} (hf : s.resolve? name = some (lib, f))
      (hspec : lib.spec? name = some spec)
      (h : spec.Refuses s.strict args.length) :
      AtFault s (.call name args)
        (.formula (.arguments name spec (if args.length < spec.least then .least else .most)))

variable {s : Setting} {x : Expression} {f : Fault}

private theorem callFault?_eq_some_iff {name : String} {n : Nat} :
    s.callFault? name n = some f ↔ ∃ lib g spec, s.resolve? name = some (lib, g) ∧
      lib.spec? name = some spec ∧ spec.Refuses s.strict n ∧
        f = .formula (.arguments name spec (if n < spec.least then .least else .most)) := by
  unfold callFault?
  cases s.resolve? name with
  | none => simp
  | some r =>
    obtain ⟨lib, g⟩ := r
    dsimp only
    unfold argumentFault?
    cases hspec : lib.spec? name with
    | none => simp [hspec]
    | some spec =>
      simp only [Option.map_eq_some_iff, Walk.brokenBound?_eq_some_iff]
      constructor
      · rintro ⟨b, ⟨hrefuses, rfl⟩, rfl⟩
        exact ⟨lib, g, spec, rfl, hspec, hrefuses, rfl⟩
      · rintro ⟨_, _, spec', hlib, hspec', hrefuses, rfl⟩
        cases hlib
        obtain rfl : spec = spec' := Option.some.inj (hspec.symm.trans hspec')
        exact ⟨_, ⟨hrefuses, rfl⟩, rfl⟩

private theorem nodeFault?_eq_some_iff : s.nodeFault? x = some f ↔ s.AtFault x f := by
  constructor
  · intro h
    cases x with
    | literal v => cases h
    | identifier name => cases h
    | call name args =>
      obtain ⟨lib, g, spec, hf, hspec, hrefuses, rfl⟩ := callFault?_eq_some_iff.mp h
      exact .call hf hspec hrefuses
    | unary op x =>
      cases ho : UnaryOperator.ofSymbol? op with
      | some o => simp [nodeFault?, ho] at h
      | none =>
        obtain rfl : .unsupportedOperator op = f := by simpa [nodeFault?, ho] using h
        exact .unary (UnaryOperator.ofSymbol?_eq_none_iff.mp ho) x
    | binary op l r =>
      cases ho : BinaryOperator.ofSymbol? op with
      | some o => simp [nodeFault?, ho] at h
      | none =>
        obtain rfl : .unsupportedOperator op = f := by simpa [nodeFault?, ho] using h
        exact .binary (BinaryOperator.ofSymbol?_eq_none_iff.mp ho) l r
    | foreign v =>
      cases h
      exact .foreign v
  · intro h
    cases h with
    | foreign v => rfl
    | unary hop x => simp [nodeFault?, UnaryOperator.ofSymbol?_eq_none_iff.mpr hop]
    | binary hop l r => simp [nodeFault?, BinaryOperator.ofSymbol?_eq_none_iff.mpr hop]
    | call hf hspec hrefuses =>
      exact callFault?_eq_some_iff.mpr ⟨_, _, _, hf, hspec, hrefuses, rfl⟩

private theorem exists_of_firstFault? {events : List Event} (h : s.firstFault? events = some f) :
    ∃ before path x after, events = before ++ .check path x :: after ∧ s.AtFault x f ∧
      (∀ path' y, .check path' y ∈ before → ∀ g, ¬s.AtFault y g) ∧ s.reached events = before := by
  obtain ⟨before, event, after, rfl, hevent, hbefore⟩ := List.findSome?_eq_some_iff.mp h
  cases event with
  | enter name => cases hevent
  | check path x =>
    refine ⟨before, path, x, after, rfl, nodeFault?_eq_some_iff.mp hevent, ?_, ?_⟩
    · intro path' y hy g hg
      have hnone : s.nodeFault? y = none := hbefore _ hy
      rw [nodeFault?_eq_some_iff.mpr hg] at hnone
      cases hnone
    · rw [reached_append_of_firstFault?_eq_none (firstFault?_eq_none_iff.mpr hbefore)]
      simp [reached, hevent]

end Setting

namespace Expression

private theorem mem_eventsAll {path : List String} {es : List Expression} {x : Event} :
    x ∈ eventsAll path es ↔ ∃ e ∈ es, x ∈ e.events path := by
  induction es with
  | nil => simp [eventsAll]
  | cons e es ih => simp [eventsAll, ih]

private theorem exists_check_mem_events {e x : Expression} {path : List String} :
    (∃ path', .check path' x ∈ e.events path) ↔ x ∈ e.nodes := by
  induction e generalizing path with
  | call name args ih =>
    simp only [events, nodes, List.mem_cons, List.mem_append, reduceCtorEq, false_or,
      Event.check.injEq, mem_eventsAll, mem_nodesAll, List.not_mem_nil, or_false]
    constructor
    · rintro ⟨path', ⟨a, ha, hx⟩ | ⟨-, hx⟩⟩
      · exact .inr ⟨a, ha, (ih a ha).mp ⟨path', hx⟩⟩
      · exact .inl hx
    · rintro (hx | ⟨a, ha, hx⟩)
      · exact ⟨path, .inr ⟨rfl, hx⟩⟩
      · obtain ⟨path', hpath⟩ := (ih a ha).mpr hx
        exact ⟨path', .inl ⟨a, ha, hpath⟩⟩
  | unary op y ih => simp [events, nodes, exists_or, ih]
  | binary op l r ihl ihr => simp [events, nodes, exists_or, ihl, ihr]
  | _ => simp [events, nodes]

end Expression

namespace Setting

private theorem exists_firstFault?_iff {s : Setting} {e : Expression} {path : List String} :
    (∃ f, s.firstFault? (e.events path) = some f) ↔ ∃ x ∈ e.nodes, ∃ f, s.AtFault x f := by
  constructor
  · rintro ⟨f, h⟩
    obtain ⟨before, path', x, after, hevents, hx, -⟩ := exists_of_firstFault? h
    have hmem : .check path' x ∈ e.events path := by simp [hevents]
    exact ⟨x, Expression.exists_check_mem_events.mp ⟨path', hmem⟩, f, hx⟩
  · rintro ⟨x, hx, f, hf⟩
    obtain ⟨path', hmem⟩ := Expression.exists_check_mem_events.mpr hx
    cases h : s.firstFault? (e.events path) with
    | some g => exact ⟨g, rfl⟩
    | none =>
      have hnone : s.nodeFault? x = none := firstFault?_eq_none_iff.mp h _ hmem
      rw [nodeFault?_eq_some_iff.mpr hf] at hnone
      cases hnone

private theorem outcome_eq_error_iff {α : Type} {s : Setting} {events : List Event} {a : α}
    {f : Fault} : s.outcome events a = .error f ↔ s.firstFault? events = some f := by
  unfold outcome
  cases s.firstFault? events <;> simp

end Setting

namespace Context

/-- A compilation fails exactly if some node of the expression is at fault. Then the fault is that of
the node at fault which is checked first. No call is left open, no imbalance is reported, and the
dependencies are those that were found before. -/
theorem compile_eq_error_iff (c : Context) (e : Expression) :
    ((∃ f, (c.compile e).1 = .error f) ↔ ∃ x ∈ e.nodes, ∃ f, c.setting.AtFault x f) ∧
      ∀ f, (c.compile e).1 = .error f → ∃ before path x after,
        e.events [] = before ++ .check path x :: after ∧ c.setting.AtFault x f ∧
          (∀ path' y, .check path' y ∈ before → ∀ g, ¬c.setting.AtFault y g) ∧
          (c.compile e).2.pass.depth = 0 ∧ (c.compile e).2.pass.imbalances = c.pass.imbalances ∧
          (c.compile e).2.pass.found = before.flatMap c.setting.eventDependencies := by
  rw [compile_eq_outcome]
  dsimp only
  simp only [Setting.outcome_eq_error_iff]
  refine ⟨Setting.exists_firstFault?_iff, ?_⟩
  intro f h
  obtain ⟨before, path, x, after, hevents, hx, hbefore, hreached⟩ := Setting.exists_of_firstFault? h
  rw [hreached]
  exact ⟨before, path, x, after, hevents, hx, hbefore, rfl, rfl, rfl⟩

/-- Too many arguments are refused inside a call of an unknown function, in an operand that is never
evaluated. They are counted after the arguments, and come before an operator that is not supported. -/
theorem compile_eq_error_iff_skipped :
    let s := { Setting.bare "c" with strict := true }
    let c : Context := { Context.new s (.cycle []) with
      pass := (Pass.start (.cycle [])).beginCall ⟨"g", true⟩ }
    let wrong : Expression := .call "random" [.call "random" [], .identifier "u", .literal .null]
    let e : Expression := .binary "or" (.literal (.bool true))
      (.call "f" [wrong, .unary "~" (.call "random" [])])
    let fault : Fault := .formula (.arguments "random" Builtin.random.spec .most)
    s.AtFault wrong fault ∧ (∃ f, (c.compile e).1 = .error f) ∧ (c.compile e).1 = .error fault ∧
      (c.compile e).2.pass.found =
        [⟨.random, none, some [], some "c"⟩, ⟨.undefined "u", none, some [], some "c"⟩] ∧
      ∃ before path x after, e.events [] = before ++ .check path x :: after ∧ s.AtFault x fault ∧
        (c.compile e).2.pass.depth = 0 ∧
        (c.compile e).2.pass.found = before.flatMap s.eventDependencies := by
  intro s c wrong e fault
  have hwrong : s.AtFault wrong fault := .call rfl rfl (.inr ⟨rfl, rfl⟩)
  have hnode : wrong ∈ e.nodes := by simp [e, Expression.nodes, Expression.nodesAll, wrong]
  have hfails := (compile_eq_error_iff c e).1.mpr ⟨wrong, hnode, fault, hwrong⟩
  have hcompile : (c.compile e).1 = .error fault := rfl
  obtain ⟨before, path, x, after, hevents, hx, -, hdepth, -, hfound⟩ :=
    (compile_eq_error_iff c e).2 fault hcompile
  exact ⟨hwrong, hfails, hcompile, rfl, before, path, x, after, hevents, hx, hdepth, hfound⟩

end Context

end FormulaEngine

import FormulaEngine.Proofs.Ownership
import FormulaEngine.Proofs.Randomness
/-!
# What compiled code reads

Code looks names up when it runs, but only in the scopes that its compilation has chosen: declared
names in the environment, other variables among the instance variables, and functions that no fixed
library owns in the client's library. Two runs that find the same there come to the same, whatever
else differs between their contexts and environments.
-/
namespace FormulaEngine

namespace Code

mutual

/-- The variables that code looks up and their scopes, with one entry for each look-up. -/
def reads : Code → List (VariableScope × String)
  | .constant _ => []
  | .read scope name => [(scope, name)]
  | .call _ _ args => readsAll args
  | .operation _ operands => readsAll operands
  | .deferred _ => []

def readsAll : List Code → List (VariableScope × String)
  | [] => []
  | c :: cs => reads c ++ readsAll cs

end

private theorem mem_readsAll {x : VariableScope × String} {cs : List Code} :
    x ∈ readsAll cs ↔ ∃ c ∈ cs, x ∈ c.reads := by
  induction cs with
  | nil => simp [readsAll]
  | cons c cs ih => simp [readsAll, ih]

/-- Whether code finds the same variables and functions in two settings and environments. -/
structure FindsAlike (s s' : Setting) (env env' : Scope) (c : Code) : Prop where
  values : ∀ x ∈ c.reads, readVariable s env x.1 x.2 = readVariable s' env' x.1 x.2
  functions : ∀ x ∈ c.calls, (s.library x.1).function? x.2 = (s'.library x.1).function? x.2

section

variable {s s' : Setting} {env env' : Scope} {scope : FunctionScope} {name op : String}
  {args operands : List Code}

private theorem FindsAlike.argument (h : FindsAlike s s' env env' (.call scope name args)) :
    ∀ a ∈ args, FindsAlike s s' env env' a := by
  intro a ha
  refine ⟨fun x hx => h.values x ?_, fun x hx => h.functions x ?_⟩
  · exact mem_readsAll.mpr ⟨a, ha, hx⟩
  · exact List.mem_append_left _ (mem_callsAll.mpr ⟨a, ha, hx⟩)

private theorem FindsAlike.operand (h : FindsAlike s s' env env' (.operation op operands)) :
    ∀ a ∈ operands, FindsAlike s s' env env' a := by
  intro a ha
  refine ⟨fun x hx => h.values x ?_, fun x hx => h.functions x ?_⟩
  · exact mem_readsAll.mpr ⟨a, ha, hx⟩
  · exact mem_callsAll.mpr ⟨a, ha, hx⟩

private theorem FindsAlike.function (h : FindsAlike s s' env env' (.call scope name args)) :
    (s.library scope).function? name = (s'.library scope).function? name :=
  h.functions (scope, name) (List.mem_append_right _ (List.mem_singleton_self _))

end

private theorem callNamed_congr {lib lib' : Library} {name : String}
    (h : lib.function? name = lib'.function? name) : callNamed lib name = callNamed lib' name := by
  funext args
  rw [callNamed, callNamed, h]

private theorem run_congr {s s' : Setting} {env env' : Scope} {c : Code}
    (h : FindsAlike s s' env env' c) : run s env c = run s' env' c := by
  induction c with
  | constant v => rfl
  | read scope name =>
    have hvalue := h.values (scope, name) (List.mem_singleton_self _)
    rw [run, run, hvalue]
  | call scope name args ih =>
    have hargs := runAll_map_congr (f := id) (g := id) fun a ha => ih a ha (h.argument a ha)
    rw [List.map_id] at hargs
    rw [run, run, hargs, callNamed_congr h.function]
  | operation op operands ih =>
    have hrun := run_operation_congr (f := id) (g := id) op fun a ha => ih a ha (h.operand a ha)
    rwa [List.map_id] at hrun
  | deferred e => rfl

end Code

namespace Setting

variable {s : Setting} {name : String}

private theorem mem_reads_variableCode {x : VariableScope × String}
    (h : x ∈ (s.variableCode name).reads) :
    constant? name = none ∧ x = (if name ∈ s.declared then .environment else .own, name) := by
  cases hc : constant? name with
  | some v => simp [variableCode_of_constant hc, Code.reads] at h
  | none =>
    by_cases hd : name ∈ s.declared
    · rw [variableCode_of_declared hc hd] at h
      simpa [Code.reads, hd] using h
    · cases hv : s.instanceVariables.value? name with
      | some v =>
        rw [variableCode_of_value hc hd hv] at h
        simpa [Code.reads, hd] using h
      | none =>
        have hunknown := knows_eq_false_iff.mpr ⟨hc, hd, hv⟩
        simp [variableCode_of_unknown hunknown, Code.reads] at h

private theorem owns_of_resolve?_client {lib : Library} {f : Callable}
    (h : s.resolve? name = some (lib, f)) (hscope : lib.scope = .client) :
    Library.owns name = false := by
  cases hb : Library.builtin.function? name with
  | some g =>
    rw [s.resolve?_of_builtin hb] at h
    cases h
    cases hscope
  | none =>
    cases hm : Library.math.function? name with
    | some g =>
      rw [s.resolve?_of_math hb hm] at h
      cases h
      cases hscope
    | none => simp [Library.owns, hb, hm]

end Setting

namespace Expression

variable {s : Setting} {e : Expression}

private theorem mem_reads_code {x : VariableScope × String} (h : x ∈ (e.code s).reads) :
    .identifier x.2 ∈ e.nodes ∧ constant? x.2 = none ∧
      x.1 = if x.2 ∈ s.declared then .environment else .own := by
  induction e with
  | literal v => simp [code, Code.reads] at h
  | identifier name =>
    obtain ⟨hc, rfl⟩ := Setting.mem_reads_variableCode h
    exact ⟨.head _, hc, rfl⟩
  | call name args ih =>
    have hargs : x ∈ Code.readsAll (codeAll s args) := by
      rw [code, Setting.callCode] at h
      cases hf : s.resolve? name with
      | none => simp [hf, Code.reads] at h
      | some r => simpa [hf, Code.reads] using h
    rw [codeAll_eq_map] at hargs
    obtain ⟨c, hc, hx⟩ := Code.mem_readsAll.mp hargs
    obtain ⟨a, ha, rfl⟩ := List.mem_map.mp hc
    obtain ⟨hnode, hname⟩ := ih a ha hx
    exact ⟨.tail _ (mem_nodesAll.mpr ⟨a, ha, hnode⟩), hname⟩
  | unary op y ih =>
    obtain ⟨hnode, hname⟩ := ih (by simpa [code, Code.reads, Code.readsAll] using h)
    exact ⟨.tail _ hnode, hname⟩
  | binary op l r ihl ihr =>
    have hlr : x ∈ (l.code s).reads ∨ x ∈ (r.code s).reads := by
      simpa [code, Code.reads, Code.readsAll] using h
    rcases hlr with hl | hr
    · obtain ⟨hnode, hname⟩ := ihl hl
      exact ⟨.tail _ (List.mem_append_left _ hnode), hname⟩
    · obtain ⟨hnode, hname⟩ := ihr hr
      exact ⟨.tail _ (List.mem_append_right _ hnode), hname⟩
  | foreign v => simp [code, Code.reads] at h

private theorem mem_calls_code {x : FunctionScope × String} (h : x ∈ (e.code s).calls) :
    (∃ args, .call x.2 args ∈ e.nodes) ∧ (x.1 = .client → Library.owns x.2 = false) := by
  induction e with
  | literal v => simp [code, Code.calls] at h
  | identifier name =>
    rw [code, s.calls_variableCode] at h
    cases h
  | call name args ih =>
    rw [code, Setting.callCode] at h
    cases hf : s.resolve? name with
    | none => simp [hf, Code.calls] at h
    | some r =>
      rw [hf] at h
      rcases List.mem_append.mp h with hx | hx
      · rw [codeAll_eq_map] at hx
        obtain ⟨c, hc, hx⟩ := Code.mem_callsAll.mp hx
        obtain ⟨a, ha, rfl⟩ := List.mem_map.mp hc
        obtain ⟨⟨as, hnode⟩, hclient⟩ := ih a ha hx
        exact ⟨⟨as, .tail _ (mem_nodesAll.mpr ⟨a, ha, hnode⟩)⟩, hclient⟩
      · obtain rfl := List.mem_singleton.mp hx
        exact ⟨⟨args, .head _⟩, Setting.owns_of_resolve?_client hf⟩
  | unary op y ih =>
    obtain ⟨⟨as, hnode⟩, hclient⟩ := ih (by simpa [code, Code.calls, Code.callsAll] using h)
    exact ⟨⟨as, .tail _ hnode⟩, hclient⟩
  | binary op l r ihl ihr =>
    have hlr : x ∈ (l.code s).calls ∨ x ∈ (r.code s).calls := by
      simpa [code, Code.calls, Code.callsAll] using h
    rcases hlr with hl | hr
    · obtain ⟨⟨as, hnode⟩, hclient⟩ := ihl hl
      exact ⟨⟨as, .tail _ (List.mem_append_left _ hnode)⟩, hclient⟩
    · obtain ⟨⟨as, hnode⟩, hclient⟩ := ihr hr
      exact ⟨⟨as, .tail _ (List.mem_append_right _ hnode)⟩, hclient⟩
  | foreign v => simp [code, Code.calls] at h

/-- The code of an expression finds the same wherever the names of the expression mean the same in
the scopes that they are bound to. -/
private theorem findsAlike_code {t t' : Setting} {env env' : Scope}
    (henv : ∀ name, .identifier name ∈ e.nodes → constant? name = none → name ∈ s.declared →
      env.value? name = env'.value? name)
    (hown : ∀ name, .identifier name ∈ e.nodes → constant? name = none → name ∉ s.declared →
      t.instanceVariables.value? name = t'.instanceVariables.value? name)
    (hclient : ∀ name args, .call name args ∈ e.nodes → Library.owns name = false →
      (t.library .client).function? name = (t'.library .client).function? name) :
    Code.FindsAlike t t' env env' (e.code s) := by
  constructor
  · intro x hx
    obtain ⟨hnode, hc, hscope⟩ := mem_reads_code hx
    rw [hscope]
    by_cases hd : x.2 ∈ s.declared
    · rw [if_pos hd, readVariable, readVariable, henv x.2 hnode hc hd]
    · rw [if_neg hd, readVariable, readVariable, hown x.2 hnode hc hd]
  · intro x hx
    obtain ⟨⟨args, hnode⟩, howns⟩ := mem_calls_code hx
    cases hscope : x.1 with
    | builtin => rfl
    | math => rfl
    | client => exact hclient x.2 args hnode (howns hscope)

end Expression

namespace Context

def skip (c : Context) (k : Nat) : Context :=
  { c with pass := { c.pass with draws := c.pass.draws.skip k } }

/-- Two runs of compiled code come to the same and draw as many random numbers, in any two contexts
and environments, if they agree on what the code was bound to: the declared names of the expression
in the environments, its other variables among the instance variables, and the functions that it
calls and that no fixed library owns among the client's functions. The random numbers have to agree
as far as the compilation found dependencies on randomness. Nothing else has any influence. -/
theorem run_congr_of_compile {c c' r r' : Context} {e : Expression} {code : Code} {env env' : Scope}
    (h : c.compile e = (.ok code, c'))
    (henv : ∀ name, .identifier name ∈ e.nodes → constant? name = none →
      name ∈ c.setting.declared → env.value? name = env'.value? name)
    (hown : ∀ name, .identifier name ∈ e.nodes → constant? name = none →
      name ∉ c.setting.declared →
        r.setting.instanceVariables.value? name = r'.setting.instanceVariables.value? name)
    (hclient : ∀ name args, .call name args ∈ e.nodes → Library.owns name = false →
      (r.setting.library .client).function? name = (r'.setting.library .client).function? name)
    (hdraws : r.pass.draws.Alike (Dependency.randomCount c'.pass.found) r'.pass.draws) :
    ∃ o k, r.run code env = (o, r.skip k) ∧ r'.run code env' = (o, r'.skip k) ∧
      r.demand code env = (o.bind Value.demand, r.skip k) ∧
      r'.demand code env' = (o.bind Value.demand, r'.skip k) := by
  obtain ⟨-, rfl, rfl⟩ := compile_eq_ok_iff.mp h
  have hsame := Code.run_congr (Expression.findsAlike_code henv hown hclient)
  -- Equal runs still have to be fed alike: no run draws more often than dependencies were found.
  have hreads := (Code.reads_run r.setting env _).mono (e.randomCalls_code_le (s := c.setting) [])
  obtain ⟨k, -, o, hrun, hrun'⟩ := hreads r.pass.draws r'.pass.draws hdraws
  rw [hsame] at hrun'
  exact ⟨o, k, run_of_lift hrun, run_of_lift hrun', demand_of_lift hrun, demand_of_lift hrun'⟩

/-- Elsewhere another value stands under a name in the environment, the name of a variable is
declared, calls are counted strictly and one is open. -/
theorem run_congr_of_compile_elsewhere :
    let f : ClientEntry := .function fun vs => .ok (.list vs)
    let bare : Setting := { Setting.bare "c" with declared := ["x"] }
    let s := (bare.setVariable "v" (.int 1)).setFunction "f" f
    let c := Context.new s (.cycle [])
    let e : Expression :=
      .call "f" [.call "random" [], .identifier "v", .identifier "x", .identifier "e"]
    let code : Code := .call .client "f"
      [.call .builtin "random" [], .read .own "v", .read .environment "x",
        .constant (.float 2.718281828459045)]
    let here := Context.new (s.setVariable "v" (.text "a")) (.cycle [0.25])
    let t := { ((Setting.bare "d").setVariable "v" (.text "a")).setFunction "f" f with
      declared := ["v"], strict := true, owner := some .random }
    let there : Context :=
      { Context.new (t.setSpec "f" (.exactly 1 .other)) (.cycle [0.25, 0.75]) with
        pass := (Pass.start (.cycle [0.25, 0.75])).beginCall ⟨"g", true⟩ }
    let env : Scope := Table.empty.insert "x" (.bool true)
    let env' : Scope := (env.insert "v" (.int 7)).insert "e" (.int 2)
    let answer : Value := .list [.float 0.25, .text "a", .bool true, .float 2.718281828459045]
    c.compile e = (.ok code, (c.compile e).2) ∧
      here.run code env = (.ok answer, here.skip 1) ∧
      ∃ o k, here.run code env = (o, here.skip k) ∧ there.run code env' = (o, there.skip k) := by
  intro f bare s c e code here t there env env' answer
  have h : c.compile e = (.ok code, (c.compile e).2) := rfl
  have hnames : ∀ name, .identifier name ∈ e.nodes → name = "v" ∨ name = "x" ∨ name = "e" := by
    simp [e, Expression.nodes, Expression.nodesAll]
  have hcalls : ∀ name args, .call name args ∈ e.nodes → name = "f" ∨ name = "random" := by
    intro name args hnode
    simp [e, Expression.nodes, Expression.nodesAll] at hnode
    exact hnode.imp And.left And.left
  have henv : ∀ name, .identifier name ∈ e.nodes → constant? name = none →
      name ∈ c.setting.declared → env.value? name = env'.value? name := by
    intro name _ _ hd
    obtain rfl := List.mem_singleton.mp hd
    rfl
  have hown : ∀ name, .identifier name ∈ e.nodes → constant? name = none →
      name ∉ c.setting.declared → here.setting.instanceVariables.value? name =
        there.setting.instanceVariables.value? name := by
    intro name hnode hc hd
    rcases hnames name hnode with rfl | rfl | rfl
    · rfl
    · exact absurd (List.mem_singleton_self _) hd
    · cases hc
  have hclient : ∀ name args, .call name args ∈ e.nodes → Library.owns name = false →
      (here.setting.library .client).function? name =
        (there.setting.library .client).function? name := by
    intro name args hnode howns
    rcases hcalls name args hnode with rfl | rfl
    · rfl
    · cases howns
  have hdraws : here.pass.draws.Alike (Dependency.randomCount (c.compile e).2.pass.found)
      there.pass.draws := by
    intro i hi
    obtain rfl : i = 0 := Nat.lt_one_iff.mp hi
    rfl
  obtain ⟨o, k, hrun, hrun', -⟩ := run_congr_of_compile h henv hown hclient hdraws
  exact ⟨h, rfl, o, k, hrun, hrun'⟩

end Context

end FormulaEngine

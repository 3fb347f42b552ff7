import FormulaEngine.Proofs.Code
import FormulaEngine.Proofs.Compilation
/-!
# When compiled code is stale

The names that a compilation did not know are all that has to be watched: as long as none of them
gets a value, code that was compiled in older tables does what newly compiled code does, though it
may read variables where the new code has errors.
-/
namespace FormulaEngine

/-- Whether a node gets the same meaning in the tables `s` by code compiled there and by code that
was compiled in the tables `t`. -/
def Setting.BindsAlike (s t : Setting) : Expression → Prop
  | .identifier name =>
    (name ∈ t.declared ↔ name ∈ s.declared) ∧
      (t.knows name = false → s.instanceVariables.value? name = none)
  | .call name _ => (t.resolve? name).map (·.1.scope) = (s.resolve? name).map (·.1.scope)
  | _ => True

namespace Code

variable {s t : Setting} {env : Scope}

private theorem run_own_of_none {name : String} (h : s.instanceVariables.value? name = none) :
    run s env (.read .own name) = run s env (.deferred (.variable name)) := by
  rw [run, run, readVariable, h]

private theorem run_variableCode_congr {name : String} (hd : name ∈ t.declared ↔ name ∈ s.declared)
    (hu : t.knows name = false → s.instanceVariables.value? name = none) :
    run s env (t.variableCode name) = run s env (s.variableCode name) := by
  cases hc : constant? name with
  | some v => rw [t.variableCode_of_constant hc, s.variableCode_of_constant hc]
  | none =>
    by_cases hs : name ∈ s.declared
    · rw [Setting.variableCode_of_declared hc (hd.mpr hs), Setting.variableCode_of_declared hc hs]
    have ht : name ∉ t.declared := fun h => hs (hd.mp h)
    cases hnew : s.instanceVariables.value? name with
    | some v =>
      cases hold : t.instanceVariables.value? name with
      | some w =>
        rw [Setting.variableCode_of_value hc ht hold, Setting.variableCode_of_value hc hs hnew]
      | none =>
        have hvalue := hu (Setting.knows_eq_false_iff.mpr ⟨hc, ht, hold⟩)
        rw [hnew] at hvalue
        cases hvalue
    | none =>
      rw [s.variableCode_of_unknown (Setting.knows_eq_false_iff.mpr ⟨hc, hs, hnew⟩)]
      cases hold : t.instanceVariables.value? name with
      | some w => rw [Setting.variableCode_of_value hc ht hold, run_own_of_none hnew]
      | none => rw [t.variableCode_of_unknown (Setting.knows_eq_false_iff.mpr ⟨hc, ht, hold⟩)]

private theorem run_callCode_congr {name : String} {as bs : List Code}
    (hscope : (t.resolve? name).map (·.1.scope) = (s.resolve? name).map (·.1.scope))
    (h : runAll s env as = runAll s env bs) :
    run s env (t.callCode name as) = run s env (s.callCode name bs) := by
  unfold Setting.callCode
  cases ht : t.resolve? name with
  | none =>
    cases hs : s.resolve? name with
    | none => rfl
    | some r => simp [ht, hs] at hscope
  | some r =>
    cases hs : s.resolve? name with
    | none => simp [ht, hs] at hscope
    | some r' =>
      have hscope' : r.1.scope = r'.1.scope := by simpa [ht, hs] using hscope
      dsimp only
      rw [run, run, h, hscope']

private theorem run_code_congr {e : Expression} (h : ∀ x ∈ e.nodes, s.BindsAlike t x) :
    run s env (e.code t) = run s env (e.code s) := by
  induction e with
  | literal v => rfl
  | identifier name =>
    obtain ⟨hd, hu⟩ := h (.identifier name) (by simp [Expression.nodes])
    exact run_variableCode_congr hd hu
  | call name args ih =>
    obtain ⟨hscope, hargs⟩ := Expression.forall_nodes_call.mp h
    rw [Expression.code, Expression.code, Expression.codeAll_eq_map, Expression.codeAll_eq_map]
    exact run_callCode_congr hscope (runAll_map_congr fun a ha => ih a ha (hargs a ha))
  | unary op x ih =>
    have hx := (Expression.forall_nodes_unary.mp h).2
    have hall : ∀ y ∈ [x], run s env (y.code t) = run s env (y.code s) := by simpa using ih hx
    exact run_operation_congr op hall
  | binary op l r ihl ihr =>
    obtain ⟨-, hl, hr⟩ := Expression.forall_nodes_binary.mp h
    have hall : ∀ y ∈ [l, r], run s env (y.code t) = run s env (y.code s) := by
      simpa using ⟨ihl hl, ihr hr⟩
    exact run_operation_congr op hall
  | foreign v => rfl

/-- Whether two codes do the same, with the same random numbers, in every context with the tables
`s` and in every environment. -/
def RunsLike (s : Setting) (a b : Code) : Prop :=
  ∀ (r : Context) (env : Scope), r.setting = s → r.run a env = r.run b env

private theorem runsLike_code {e : Expression} (h : ∀ x ∈ e.nodes, s.BindsAlike t x) :
    RunsLike s (e.code t) (e.code s) := by
  intro r env hr
  rw [Context.run, Context.run, hr, run_code_congr h]

end Code

namespace Expression

private theorem exists_undefined_mem_dependencies {s : Setting} {e : Expression} {name : String}
    (h : .identifier name ∈ e.nodes) (hk : s.knows name = false) (path : List String) :
    ∃ d ∈ e.dependencies s path, d.independent = .undefined name := by
  induction e generalizing path with
  | literal v => simp [nodes] at h
  | identifier n =>
    have hn : name = n := by simpa [nodes] using h
    subst hn
    simp [dependencies, hk, Setting.dependencyOn]
  | call n args ih =>
    have hargs : .identifier name ∈ nodesAll args := by simpa [nodes] using h
    obtain ⟨a, ha, hname⟩ := mem_nodesAll.mp hargs
    obtain ⟨d, hd, hd'⟩ := ih a ha hname (path ++ [n])
    exact ⟨d, List.mem_append_left _ (mem_dependenciesAll.mpr ⟨a, ha, hd⟩), hd'⟩
  | unary op x ih =>
    exact ih (by simpa [nodes] using h) path
  | binary op l r ihl ihr =>
    have hlr : .identifier name ∈ l.nodes ∨ .identifier name ∈ r.nodes := by
      simpa [nodes] using h
    rcases hlr with hl | hr
    · obtain ⟨d, hd, hname⟩ := ihl hl path
      exact ⟨d, List.mem_append_left _ hd, hname⟩
    · obtain ⟨d, hd, hname⟩ := ihr hr path
      exact ⟨d, List.mem_append_right _ hd, hname⟩
  | foreign v => simp [nodes] at h

end Expression

namespace Setting

private theorem nodeFault?_instanceVariables (s : Setting) (vars : Scope) (x : Expression) :
    nodeFault? { s with instanceVariables := vars } x = s.nodeFault? x := by
  cases x <;> rfl

private theorem bindsAlike_instanceVariables (s : Setting) {vars : Scope}
    (h : ∀ name, (vars.value? name).isSome → (s.instanceVariables.value? name).isSome)
    (x : Expression) : BindsAlike { s with instanceVariables := vars } s x := by
  cases x with
  | identifier name =>
    refine ⟨Iff.rfl, ?_⟩
    intro hk
    have hold := (knows_eq_false_iff.mp hk).2.2
    cases hnew : vars.value? name with
    | none => rfl
    | some v => simpa [hold] using h name (by simp [hnew])
  | call name args => rfl
  | _ => trivial

end Setting

namespace Context

private theorem bindsAlike_of_undefined {c c' d : Context} {e : Expression} {code : Code}
    (h : c.compile e = (.ok code, c'))
    (hdeclared : ∀ name, .identifier name ∈ e.nodes →
      (name ∈ c.setting.declared ↔ name ∈ d.setting.declared))
    (hscope : ∀ name args, .call name args ∈ e.nodes →
      (c.setting.resolve? name).map (·.1.scope) = (d.setting.resolve? name).map (·.1.scope))
    (hundefined : ∀ u ∈ c'.pass.found, u.independent.kind = .undefined →
      d.setting.instanceVariables.value? u.independent.name = none) :
    ∀ x ∈ e.nodes, d.setting.BindsAlike c.setting x := by
  obtain ⟨-, -, rfl⟩ := compile_eq_ok_iff.mp h
  intro x hx
  cases x with
  | identifier name =>
    refine ⟨hdeclared name hx, ?_⟩
    intro hk
    obtain ⟨u, hu, hname⟩ := Expression.exists_undefined_mem_dependencies hx hk []
    have hvalue := hundefined u hu (by rw [hname]; rfl)
    rwa [hname] at hvalue
  | call name args => exact hscope name args hx
  | _ => trivial

/-- Code stays as good as new code while no name that its compilation did not know gets a value, the
same names are declared and the functions stay in their libraries. So an instance variable may
change, go or be set to nothing at any time. -/
theorem runsLike_recompiled {c c' : Context} {e : Expression} {code : Code}
    (h : c.compile e = (.ok code, c')) :
    (∀ (d d' : Context) (new : Code), d.compile e = (.ok new, d') →
      (∀ name, .identifier name ∈ e.nodes →
        (name ∈ c.setting.declared ↔ name ∈ d.setting.declared)) →
      (∀ name args, .call name args ∈ e.nodes →
        (c.setting.resolve? name).map (·.1.scope) = (d.setting.resolve? name).map (·.1.scope)) →
      (∀ u ∈ c'.pass.found, u.independent.kind = .undefined →
        d.setting.instanceVariables.value? u.independent.name = none) →
      Code.RunsLike d.setting code new) ∧
    ∀ (d : Context) (vars : Scope), d.setting = { c.setting with instanceVariables := vars } →
      (∀ name, (vars.value? name).isSome → (c.setting.instanceVariables.value? name).isSome) →
      ∃ new d', d.compile e = (.ok new, d') ∧ Code.RunsLike d.setting code new := by
  obtain ⟨hfaults, rfl, -⟩ := compile_eq_ok_iff.mp h
  constructor
  · intro d d' new hd hdeclared hscope hundefined
    obtain ⟨-, rfl, -⟩ := compile_eq_ok_iff.mp hd
    exact Code.runsLike_code (bindsAlike_of_undefined h hdeclared hscope hundefined)
  · intro d vars hd hvars
    refine ⟨e.code d.setting, _, compile_eq_ok_iff.mpr ⟨?_, rfl, rfl⟩, ?_⟩
    · intro x hx
      rw [hd, Setting.nodeFault?_instanceVariables]
      exact hfaults x hx
    · rw [hd]
      exact Code.runsLike_code fun x _ => c.setting.bindsAlike_instanceVariables hvars x

/-- Code that reads a variable goes on to do what new code does when the variable is dropped. -/
theorem runsLike_recompiled_dropVariable :
    let s := (Setting.bare "c").setVariable "v" (.int 1)
    let c := Context.new s (.cycle [])
    let d := Context.new (s.dropVariable "v") (.cycle [])
    let e : Expression := .binary "+" (.identifier "v") (.identifier "u")
    let old : Code := .operation "+" [.read .own "v", .deferred (.variable "u")]
    let new : Code := .operation "+" [.deferred (.variable "v"), .deferred (.variable "u")]
    c.compile e = (.ok old, (c.compile e).2) ∧ d.compile e = (.ok new, (d.compile e).2) ∧
      Code.RunsLike d.setting old new := by
  intro s c d e old new
  have hold : c.compile e = (.ok old, (c.compile e).2) := rfl
  have hnew : d.compile e = (.ok new, (d.compile e).2) := rfl
  have hfound : (c.compile e).2.pass.found = [⟨.undefined "u", none, some [], some "c"⟩] := rfl
  refine ⟨hold, hnew, (runsLike_recompiled hold).1 d _ new hnew (fun _ _ => Iff.rfl) ?_ ?_⟩
  · intro name args hcall
    simp [e, Expression.nodes] at hcall
  · intro u hu _
    rw [hfound, List.mem_singleton] at hu
    rw [hu]
    rfl

end Context

end FormulaEngine

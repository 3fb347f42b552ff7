import FormulaEngine.Proofs.Immediate
/-!
# Error values from outside

Values that are errors can come from the tables of a context, from the environment, from literals
and from clients' functions. Code stops at them, and operators hand them on in an immediate
evaluation too. But an immediate evaluation calls a function on them like on other values, and the
function may answer a proper value. This is the only way in which an immediate evaluation loses an
error that code raises.
-/
namespace FormulaEngine

namespace Context

variable {c c' r d : Context} {e : Expression} {code : Code} {env : Scope}

private theorem isError_of_meetsAt {source : Nat → Float}
    (h : MeetsAt (.carrying source (∃ f, (r.run code env).1 = .error f)) Value.error?
      (code.run r.setting env r.pass.draws)
      (Walk.evaluate d.setting env e { d.pass with found := [] }))
    {k : FormulaError} (hdemand : (r.demand code env).1 = .error (.formula k))
    {v : Value} (hevaluate : (d.evaluate e env).1 = .ok v) : v.error?.isSome := by
  generalize hrun : code.run r.setting env r.pass.draws = x at h
  generalize hwalk : Walk.evaluate d.setting env e { d.pass with found := [] } = y at h
  cases h with
  | @value w p hw _ =>
    rw [demand_of_lift (o := .ok w) hrun] at hdemand
    rw [Except.bind, Value.demand_of_error?_eq_none hw] at hdemand
    cases hdemand
  | carried _ _ hw =>
    rw [evaluate_of_ok hwalk] at hevaluate
    cases hevaluate
    exact hw
  | raised =>
    rw [evaluate_of_error hwalk] at hevaluate
    cases hevaluate
  | @outlived f u w p _ hw =>
    rw [evaluate_of_ok hwalk] at hevaluate
    cases hevaluate
    exact hw ⟨f, by rw [run_of_lift (o := .error f) hrun]⟩
  | stopped =>
    rw [evaluate_of_error hwalk] at hevaluate
    cases hevaluate

/-- If code raises an error and an immediate evaluation in the same tables, from the same random
numbers on, answers a proper value, then that evaluation came to an error for an argument of a
function that is known, and so does code from there, unless it stops there. -/
theorem exists_argument_error (h : c.compile e = (.ok code, c')) (hr : r.setting = c.setting)
    (hd : d.setting = c.setting) (hdraws : r.pass.draws = d.pass.draws)
    (hsupplied : ∀ name, .identifier name ∈ e.nodes → constant? name = none →
      (name ∈ c.setting.declared ↔ (env.value? name).isSome))
    {k : FormulaError} (hdemand : (r.demand code env).1 = .error (.formula k))
    {v : Value} (hevaluate : (d.evaluate e env).1 = .ok v) (hv : v.isError = false) :
    ∃ name args, .call name args ∈ e.nodes ∧
      c.setting.TakesError env d.pass.draws.source (∃ f, (r.run code env).1 = .error f) name
        args := by
  obtain ⟨hfaults, rfl, -⟩ := compile_eq_ok_iff.mp h
  by_contra hnone
  let t := Terms.carrying d.pass.draws.source (∃ f, (r.run (e.code c.setting) env).1 = .error f)
  have hfits : ∀ x ∈ e.nodes, c.setting.Fits t env x := by
    intro x hx
    cases x with
    | literal v => exact fun hstrict => absurd trivial hstrict
    | identifier name => exact hsupplied name hx
    | call name args =>
      exact ⟨hfaults _ hx, False.elim, fun _ htakes => hnone ⟨name, args, hx, htakes⟩⟩
    | _ => exact hfaults _ hx
  have hmeets : MeetsAt t Value.error? ((e.code c.setting).run r.setting env r.pass.draws)
      (Walk.evaluate d.setting env e { d.pass with found := [] }) := by
    rw [hr, hd, hdraws]
    exact Meets.evaluate (fun hstrict => absurd trivial hstrict) hfits { d.pass with found := [] }
      rfl
  have herror := isError_of_meetsAt hmeets hdemand hevaluate
  rw [Value.error?_eq_none_iff.mpr hv] at herror
  cases herror

/-- A client's function answers an error. Code stops there; an immediate evaluation writes the error
out. -/
theorem exists_argument_error_string :
    let s := (Setting.bare "c").setFunction "f"
      (.function fun _ => .ok (.error (.general "n" none)))
    let c := Context.new s (.cycle [])
    let e : Expression := .call "string" [.call "f" []]
    let code : Code := .call .builtin "string" [.call .client "f" []]
    c.compile e = (.ok code, (c.compile e).2) ∧
      (c.demand code .empty).1 = .error (.formula (.general "n" none)) ∧
      (c.evaluate e .empty).1 = .ok (.text "n") ∧
      ∃ name args, .call name args ∈ e.nodes ∧
        s.TakesError .empty c.pass.draws.source (∃ f, (c.run code .empty).1 = .error f) name
          args := by
  intro s c e code
  have h : c.compile e = (.ok code, (c.compile e).2) := rfl
  have hdemand : (c.demand code .empty).1 = .error (.formula (.general "n" none)) := rfl
  have hevaluate : (c.evaluate e .empty).1 = .ok (.text "n") := rfl
  have hsupplied : ∀ name, .identifier name ∈ e.nodes → constant? name = none →
      (name ∈ c.setting.declared ↔ (Scope.value? .empty name).isSome) := by
    intro name hname
    simp [e, Expression.nodes, Expression.nodesAll] at hname
  have hargument := exists_argument_error (r := c) (d := c) h rfl rfl rfl hsupplied hdemand
    hevaluate rfl
  exact ⟨h, hdemand, hevaluate, hargument⟩

/-- An instance variable is an error, and an immediate evaluation takes it for a true value. -/
theorem evaluate_boolean_of_error :
    let s := (Setting.bare "c").setVariable "v" (.error (.variable "x"))
    let c := Context.new s (.cycle [])
    let e : Expression := .call "boolean" [.identifier "v"]
    let code : Code := .call .builtin "boolean" [.read .own "v"]
    c.compile e = (.ok code, (c.compile e).2) ∧
      (∀ name, .identifier name ∈ e.nodes → constant? name = none →
        (name ∈ s.declared ↔ (Scope.value? .empty name).isSome)) ∧
      (c.demand code .empty).1 = .error (.formula (.variable "x")) ∧
      (c.evaluate e .empty).1 = .ok (.bool true) := by
  intro s c e code
  refine ⟨rfl, ?_, rfl, rfl⟩
  intro name _ _
  have hempty : (Scope.value? .empty name).isSome = false := rfl
  simp [s, Setting.setVariable, Setting.bare, hempty]

end Context

end FormulaEngine

import FormulaEngine.Proofs.Footprint
/-!
# What an immediate evaluation finds

An immediate evaluation works in the pass of the last compilation: it opens and closes calls there
and notes dependencies. However it ends, nothing of this is left in the pass, and what it has found
is kept apart. A compilation of the same expression finds these dependencies too, in the same order
and under the same aggregates. If no logical operator leaves an operand out, an evaluation that
comes to a value has found all dependencies on randomness that the compilation finds.
-/
namespace FormulaEngine

namespace Dependency

def randoms (ds : List Dependency) : List Dependency :=
  ds.filter (·.independent = .random)

private theorem randoms_append (ds es : List Dependency) :
    randoms (ds ++ es) = randoms ds ++ randoms es :=
  List.filter_append ..

end Dependency

namespace Expression

variable {s : Setting}

private theorem randoms_dependenciesAll {es : List Expression} {path : List String}
    (ih : ∀ e ∈ es, Dependency.randoms (e.dependencies s path) = e.randoms s (s.openCalls path)) :
    Dependency.randoms (dependenciesAll s path es) = randomsAll s (s.openCalls path) es := by
  induction es with
  | nil => rfl
  | cons e es ihs =>
    have htail := ihs fun x hx => ih x (by simp [hx])
    rw [dependenciesAll, Dependency.randoms_append, ih e (by simp), htail, randomsAll]

theorem randoms_dependencies (e : Expression) (path : List String) :
    Dependency.randoms (e.dependencies s path) = e.randoms s (s.openCalls path) := by
  induction e generalizing path with
  | literal v => rfl
  | identifier name =>
    rw [dependencies, randoms]
    split
    · rfl
    · simp [Dependency.randoms, Setting.dependencyOn, Endpoint.undefined, Endpoint.random]
  | call name args ih =>
    have hargs := randoms_dependenciesAll fun a ha => ih a ha (path ++ [name])
    rw [dependencies, Dependency.randoms_append, hargs, s.openCalls_append_singleton, randoms]
    congr 1
    split
    · simp [Dependency.randoms, Setting.dependencyOn, s.randomUnder_openCalls]
    · rfl
  | unary op x ih => exact ih path
  | binary op l r ihl ihr =>
    rw [dependencies, Dependency.randoms_append, ihl, ihr, randoms]
  | foreign v => rfl

end Expression

namespace Context

variable {c c' d : Context} {e : Expression} {code : Code}

/-- However an evaluation ends, the pass of the last compilation is as it was: the same calls are
open, no imbalance is reported, and what is registered next goes to the dependencies of the
compilation, under the same aggregates. The observers and the number of changes stay, and the
evaluation itself keeps only those dependencies that it has let the manager know of. -/
theorem evaluate_keeps_compilation (c : Context) (e : Expression) (env : Scope) :
    let c' := (c.evaluate e env).2
    c'.pass.openCalls = c.pass.openCalls ∧ c'.pass.aggregates = c.pass.aggregates ∧
      c'.pass.hasAggregates = c.pass.hasAggregates ∧ c'.pass.found = c.pass.found ∧
      c'.audience = c.audience ∧ c'.setting = c.setting ∧
      c'.pass.imbalances = c.pass.imbalances ∧
      (∀ d, (c'.walk (Walk.register c'.setting d)).2.pass.found =
          c.pass.found ++ [c.pass.complete c.setting d] ∧
        (c'.walk (Walk.register c'.setting d)).2.evaluated = c'.evaluated) ∧
      c'.pass.outbox = c.pass.outbox ++ c'.evaluated.map .register := by
  obtain ⟨o, ds, k, -, heq, -⟩ := exists_evaluate_eq c e env
  rw [heq]
  exact ⟨rfl, rfl, rfl, rfl, rfl, rfl, rfl, fun _ => ⟨rfl, rfl⟩, rfl⟩

/-- Outside of all calls an immediate evaluation finds dependencies on randomness that the
compilation of the expression in the same tables has found, in the same order and with the same
ends and aggregates, however it ends. Without logical operators an evaluation that comes to a value
finds all of them. -/
theorem evaluated_sublist_found (h : c.compile e = (.ok code, c')) (hd : d.setting = c.setting)
    (hclosed : d.pass.openCalls = []) (env : Scope) :
    (d.evaluate e env).2.evaluated.Sublist (Dependency.randoms c'.pass.found) ∧
      ((∀ x ∈ e.nodes, x.isLogical = false) → ∀ v, (d.evaluate e env).1 = .ok v →
        (d.evaluate e env).2.evaluated = Dependency.randoms c'.pass.found) := by
  obtain ⟨-, -, hc'⟩ := compile_eq_ok_iff.mp h
  have hfound : Dependency.randoms c'.pass.found = e.randoms c.setting [] := by
    rw [hc']
    exact e.randoms_dependencies []
  obtain ⟨o, ds, k, -, heq, hsub, hfull⟩ := exists_evaluate_eq d e env
  rw [hd, hclosed] at hsub hfull
  rw [heq, hfound]
  exact ⟨hsub, hfull⟩

/-- A short circuit leaves a dependency unfound; nested aggregates are found at their positions. -/
theorem evaluated_sublist_found_nested :
    let s := ((Setting.bare "c").setFunction "f" (.function fun _ => .ok (.bool true))).setSpec "f"
      ⟨1, none, .statistical, false, true, by simp⟩
    let c := Context.new s (.cycle [])
    let under (calls : List Int) : Dependency := ⟨.random, none, some calls, some "c"⟩
    let e : Expression := .binary "or" (.call "f" [.call "random" []])
      (.call "g" [.call "random" [], .identifier "u"])
    let code : Code := .operation "or"
      [.call .client "f" [.call .builtin "random" []], .deferred (.function "g")]
    let strict : Expression := .call "f" [.call "f" [.call "random" []], .call "random" []]
    let strictCode : Code :=
      .call .client "f" [.call .client "f" [.call .builtin "random" []], .call .builtin "random" []]
    c.compile e = (.ok code, (c.compile e).2) ∧
      Dependency.randoms (c.compile e).2.pass.found = [under [0], under []] ∧
      ((c.compile e).2.evaluate e .empty).2.evaluated = [under [0]] ∧
      [under [0]].Sublist [under [0], under []] ∧
      c.compile strict = (.ok strictCode, (c.compile strict).2) ∧
      ((c.compile strict).2.evaluate strict .empty).1 = .ok (.bool true) ∧
      ((c.compile strict).2.evaluate strict .empty).2.evaluated = [under [0, 1], under [0]] := by
  intro s c under e code strict strictCode
  have h : c.compile e = (.ok code, (c.compile e).2) := rfl
  have hpart := (evaluated_sublist_found h (d := (c.compile e).2) rfl rfl .empty).1
  have hfound : Dependency.randoms (c.compile e).2.pass.found = [under [0], under []] := rfl
  have hevaluated : ((c.compile e).2.evaluate e .empty).2.evaluated = [under [0]] := rfl
  rw [hfound, hevaluated] at hpart
  have hs : c.compile strict = (.ok strictCode, (c.compile strict).2) := rfl
  have hstrict : ∀ x ∈ strict.nodes, x.isLogical = false := by
    simp [strict, Expression.nodes, Expression.nodesAll, Expression.isLogical]
  have hvalue : ((c.compile strict).2.evaluate strict .empty).1 = .ok (.bool true) := rfl
  have hall := (evaluated_sublist_found hs (d := (c.compile strict).2) rfl rfl .empty).2 hstrict _
    hvalue
  have hfoundAll :
      Dependency.randoms (c.compile strict).2.pass.found = [under [0, 1], under [0]] := rfl
  rw [hfoundAll] at hall
  exact ⟨h, hfound, hevaluated, hpart, hs, hvalue, hall⟩

end Context

end FormulaEngine

import FormulaEngine.Context.Compilation
import FormulaEngine.Context.Evaluation
import FormulaEngine.Context.Audience
/-!
# Contexts

A context binds the names of formulas by its tables, compiles and evaluates formulas, and keeps
what it found out on the way: the dependencies of the last compilation and of the last evaluation,
and whether the last compilation met an aggregate call.
-/
namespace FormulaEngine

/-- A context. -/
structure Context where
  setting : Setting
  /-- The pass of the last compilation, to which single steps outside an evaluation belong too. -/
  pass : Pass
  /-- The dependencies that the last evaluation found. -/
  evaluated : List Dependency
  audience : Audience

namespace Context

def new (s : Setting) (draws : Draws) : Context :=
  ⟨s, .start draws, [], .empty⟩

/-- Takes a walk in the pass of the last compilation. -/
def walk {α : Type} (c : Context) (w : Walk α) : Except Fault α × Context :=
  match w c.pass with
  | .ok a p => (.ok a, { c with pass := p })
  | .error e p => (.error e, { c with pass := p })

/-- Prepares the compilation of a formula. -/
def willCompile (c : Context) : Context :=
  { c with pass := c.pass.restart c.setting }

def compile (c : Context) (e : Expression) : Except Fault Code × Context :=
  c.willCompile.walk (Walk.compile c.setting e)

/-- The context after an evaluation that ended in the pass `p`. The dependencies found belong to the
evaluation, and the compilation before it keeps its own and its flag. -/
def afterEvaluation (c : Context) (p : Pass) : Context :=
  { c with
    evaluated := p.found
    pass := { p with found := c.pass.found, hasAggregates := c.pass.hasAggregates } }

def evaluate (c : Context) (e : Expression) (env : Scope) : Except Fault Value × Context :=
  match Walk.evaluate c.setting env e { c.pass with found := [] } with
  | .ok v p => (.ok v, c.afterEvaluation p)
  | .error f p => (.error f, c.afterEvaluation p)

/-- Runs code in the tables of the context. -/
def run (c : Context) (code : Code) (env : Scope) : Except Fault Value × Context :=
  c.walk (Walk.ofRun (code.run c.setting env))

/-- Runs code and raises the error that its value is. -/
def demand (c : Context) (code : Code) (env : Scope) : Except Fault Value × Context :=
  let (r, c') := c.run code env
  (r.bind Value.demand, c')

/-- Takes out what the dependency manager has to be told and what has to be reported. -/
def flush (c : Context) : List Delivery × List Imbalance × Context :=
  let rest := { c.pass with outbox := [], imbalances := [] }
  (c.pass.outbox, c.pass.imbalances, { c with pass := rest })

end Context

end FormulaEngine

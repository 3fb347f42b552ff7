import FormulaEngine.Context
/-!
# Actions

Everything that can be done with a context, and what it answers.
-/
namespace FormulaEngine

/-- Something to do with a context. -/
inductive Action where
  /-- Sets an instance variable; a client may change its tables at any time. -/
  | setVariable (name : String) (v : Value)
  | dropVariable (name : String)
  | setFunction (name : String) (f : ClientEntry)
  | dropFunction (name : String)
  | setSpec (name : String) (spec : FunctionSpec)
  | beginCall (call : OpenCall)
  | endCall (name : Option String)
  | willCompile
  | compile (e : Expression)
  | evaluate (e : Expression) (env : Scope)
  | compileVariable (name : String)
  | evaluateVariable (name : String) (env : Scope)
  | compileFunction (name : String) (args : List Code) (aggregates : Option (List Int))
  | evaluateFunction (name : String) (args : List Value) (aggregates : Option (List Int))
  /-- Runs code to its value, which may be an error. -/
  | run (code : Code) (env : Scope)
  /-- Runs code and raises an error. -/
  | demand (code : Code) (env : Scope)
  | register (d : Dependency)
  | attach (observer : String)
  | detach (observer : String)
  | announce (conduct : Conduct)

/-- What an action answers. -/
inductive Answer where
  | nothing
  | flag (b : Bool)
  | value (v : Value)
  | code (c : Code)
  | dependency (d : Dependency)
  /-- Which observers were told of which version. -/
  | told (calls : List (String × Nat))

/-- Why an action was not carried out to its end. -/
inductive Refusal where
  | fault (f : Fault)
  | notAttached (e : NotAttached)

namespace Action

/-- The answer of a part of an action that may be faulty. -/
def answer {α : Type} (f : α → Answer) (r : Except Fault α × Context) :
    Except Refusal Answer × Context :=
  (match r.1 with
    | .ok a => .ok (f a)
    | .error e => .error (.fault e), r.2)

def changing (c : Context) (f : Setting → Setting) : Except Refusal Answer × Context :=
  (.ok .nothing, { c with setting := f c.setting })

def perform (c : Context) : Action → Except Refusal Answer × Context
  | .setVariable n v => changing c (·.setVariable n v)
  | .dropVariable n => changing c (·.dropVariable n)
  | .setFunction n f => changing c (·.setFunction n f)
  | .dropFunction n => changing c (·.dropFunction n)
  | .setSpec n spec => changing c (·.setSpec n spec)
  | .beginCall call => (.ok .nothing, { c with pass := c.pass.beginCall call })
  | .endCall n => (.ok (.flag (c.pass.isInnermost n)), { c with pass := c.pass.endCall n })
  | .willCompile => (.ok .nothing, c.willCompile)
  | .compile e => answer .code (c.compile e)
  | .evaluate e env => answer .value (c.evaluate e env)
  | .compileVariable n => answer .code (c.walk (Walk.compileVariable c.setting n))
  | .evaluateVariable n env => answer .value (c.walk (Walk.evaluateVariable c.setting env n))
  | .compileFunction n args agg =>
    answer .code (c.walk (Walk.compileFunction c.setting n args agg))
  | .evaluateFunction n args agg =>
    answer .value (c.walk (Walk.evaluateFunction c.setting n args agg))
  | .run code env => answer .value (c.run code env)
  | .demand code env => answer .value (c.demand code env)
  | .register d => answer .dependency (c.walk (Walk.register c.setting d))
  | .attach o => (.ok .nothing, { c with audience := c.audience.attach o })
  | .detach o =>
    match c.audience.detach o with
    | .ok a => (.ok .nothing, { c with audience := a })
    | .error e => (.error (.notAttached e), c)
  | .announce conduct =>
    match c.audience.announce conduct with
    | (told, a, none) => (.ok (.told told), { c with audience := a })
    | (_, a, some e) => (.error (.notAttached e), { c with audience := a })

end Action

end FormulaEngine

import FormulaEngine.Context.Pass
/-!
# Binding

What the names of a formula stand for, once for compiled code and once for immediate evaluation.
Compiled code turns a name that no scope knows into an error to come; immediate evaluation stops
there.
-/
namespace FormulaEngine.Walk

/-- The code for a variable, if some scope knows its name. -/
def variableCode? (s : Setting) (name : String) : Option Code :=
  match constant? name with
  | some v => some (.constant v)
  | none =>
    if s.declared.contains name then some (.read .environment name)
    else if (s.instanceVariables.value? name).isSome then some (.read .own name)
    else none

/-- Compiles a variable. A name that no scope knows is noted as a dependency. -/
def compileVariable (s : Setting) (name : String) : Walk Code :=
  match variableCode? s name with
  | some c => pure c
  | none => do
    let _ ← register s (.on (.undefined name))
    return .deferred (.variable name)

/-- The value of a variable, if some scope has one. -/
def variableValue? (s : Setting) (env : Scope) (name : String) : Option Value :=
  (constant? name).or ((env.value? name).or (s.instanceVariables.value? name))

def evaluateVariable (s : Setting) (env : Scope) (name : String) : Walk Value :=
  match variableValue? s env name with
  | some v => pure v
  | none => throw (.formula (.variable name))

/-- The bound of a specification that a number of arguments breaks. The upper bound counts only in
strict settings. -/
def brokenBound? (spec : FunctionSpec) (strict : Bool) (n : Nat) : Option Bound :=
  if n < spec.least then some .least
  else if strict && spec.most.any (· < n) then some .most
  else none

/-- Checks the number of arguments of a call, and notes that a random function depends on
randomness. -/
def checkCall (s : Setting) (name : String) (n : Nat) (lib : Library)
    (aggregates : Option (List Int)) : Walk Unit :=
  match lib.spec? name with
  | none => pure ()
  | some spec =>
    match brokenBound? spec s.strict n with
    | some bound => throw (.formula (.arguments name spec bound))
    | none => do
      if spec.isRandom then
        let _ ← register s { Dependency.on .random with aggregates := aggregates }

def compileFunction (s : Setting) (name : String) (args : List Code)
    (aggregates : Option (List Int)) : Walk Code :=
  match s.resolve? name with
  | none => pure (.deferred (.function name))
  | some (lib, _) => do
    checkCall s name args.length lib aggregates
    return .call lib.scope name args

/-- Evaluates a call whose arguments are evaluated. Arguments that are errors are handed over like
others. -/
def evaluateFunction (s : Setting) (name : String) (args : List Value)
    (aggregates : Option (List Int)) : Walk Value :=
  match s.resolve? name with
  | none => throw (.formula (.function name))
  | some (lib, f) => do
    checkCall s name args.length lib aggregates
    ofRun (Run.call f args)

end FormulaEngine.Walk

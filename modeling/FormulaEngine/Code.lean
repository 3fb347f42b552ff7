import FormulaEngine.Operator
import FormulaEngine.Context.Setting
/-!
# Code

What a formula compiles to. Running code needs the tables of a context, an environment and a source
of random numbers. An error in the use of a name is a value that goes through calls and operators up
to the result; only a function of the client can stop a run with one.
-/
namespace FormulaEngine

inductive VariableScope where
  | environment
  | own
deriving DecidableEq

namespace VariableScope

def label : VariableScope → String
  | .environment => "environment"
  | .own => "instance"

def ofLabel? (s : String) : Option VariableScope :=
  [.environment, .own].find? (·.label == s)

/-- The written form of a scope inside a formula. -/
def written : VariableScope → String
  | .environment => "<VarScope.ENVIRONMENT: 'environment'>"
  | .own => "<VarScope.INSTANCE: 'instance'>"

end VariableScope

inductive Code where
  | constant (v : Value)
  /-- A variable, looked up when the code runs. -/
  | read (scope : VariableScope) (name : String)
  /-- A call of the function that a library has when the code runs. -/
  | call (scope : FunctionScope) (name : String) (args : List Code)
  | operation (op : String) (operands : List Code)
  /-- A name that was not resolved: an error as soon as it is needed. -/
  | deferred (e : FormulaError)
deriving Inhabited

/-- A computation that draws random numbers and may stop at a fault. Numbers drawn before a fault
stay drawn. -/
abbrev Run := EStateM Fault Draws

namespace Run

def lift {α : Type} : Except Fault α → Run α
  | .ok a => fun d => .ok a d
  | .error e => fun d => .error e d

def call (f : Callable) (args : List Value) : Run Value := fun d =>
  match f.call args d with
  | (.ok v, d') => .ok v d'
  | (.error e, d') => .error e d'

end Run

/-- The value of a variable that is read, or the error that it has none. -/
def readVariable (s : Setting) (env : Scope) (scope : VariableScope) (name : String) : Value :=
  let table := match scope with
    | .environment => env
    | .own => s.instanceVariables
  match table.value? name with
  | some v => v
  | none => .error (.variable name)

/-- The call of a named function on values: the first error among them, or the result of the
function, or the error that there is no such function. -/
def callNamed (lib : Library) (name : String) (args : List Value) : Run Value :=
  match Value.firstError? args with
  | some e => pure (.error e)
  | none =>
    match lib.function? name with
    | some f => Run.call f args
    | none => pure (.error (.function name))

namespace Code

mutual

/-- Runs code to its value. A logical operator runs its second operand only if the first one, which
is no error, leaves the result open. -/
def run (s : Setting) (env : Scope) : Code → Run Value
  | .constant v => pure v
  | .read scope name => pure (readVariable s env scope name)
  | .call scope name args => do callNamed (s.library scope) name (← runAll s env args)
  | .operation op operands =>
    match Logical.ofSymbol? op with
    | none => do Run.lift (applyOperator op (← runAll s env operands))
    | some l =>
      match operands with
      | [] => throw .missingOperand
      | first :: rest => do
        let v ← run s env first
        if v.isError then return v
        if (← Run.lift (Fault.ofTrap v.truth)) = l.deciding then return v
        match rest with
        | [] => throw .missingOperand
        | second :: _ => run s env second
  | .deferred e => pure (.error e)

/-- Runs codes one after the other to their values. -/
def runAll (s : Setting) (env : Scope) : List Code → Run (List Value)
  | [] => pure []
  | c :: cs => do
    let v ← run s env c
    let vs ← runAll s env cs
    return v :: vs

end

/-- The written form of a sequence: a single member is followed by a comma. -/
def sequence : List String → String
  | [w] => "(" ++ w ++ ",)"
  | ws => "(" ++ ", ".intercalate ws ++ ")"

mutual

def written : Code → Except Trap String
  | .constant v => do return "Constant(value=" ++ (← v.written) ++ ")"
  | .read scope name =>
    .ok ("ScopedRead(scope=" ++ scope.written ++ ", name=" ++ Text.quoted name ++ ")")
  | .call scope name args => do
    return "Call(scope=" ++ scope.written ++ ", name=" ++ Text.quoted name ++ ", args=" ++
      sequence (← writtenAll args) ++ ")"
  | .operation op operands => do
    return "Operation(op=" ++ Text.quoted op ++ ", operands=" ++
      sequence (← writtenAll operands) ++ ")"
  | .deferred e => .ok ("DeferredError(error=" ++ e.written ++ ")")

def writtenAll : List Code → Except Trap (List String)
  | [] => .ok []
  | c :: cs => do
    let w ← c.written
    let ws ← writtenAll cs
    return w :: ws

end

end Code

/-- What asking for the value of a formula gives: an error value is raised. -/
def Value.demand : Value → Except Fault Value
  | .error e => .error (.formula e)
  | v => .ok v

end FormulaEngine

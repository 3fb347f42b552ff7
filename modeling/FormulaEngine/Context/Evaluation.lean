import FormulaEngine.Context.Binding
import FormulaEngine.Expression
/-!
# Immediate evaluation

The walk that turns an expression into its value without compiling it.
-/
namespace FormulaEngine.Walk

/-- Whether the first operand decides an operator: for a logical operator its truth value may. -/
def decides (op : BinaryOperator) (v : Value) : Except Fault Bool :=
  match op with
  | .logical l => (Fault.ofTrap v.truth).map (· = l.deciding)
  | _ => .ok false

mutual

/-- Evaluates an expression. An operator is checked before its operands, and a call after its
arguments. -/
def evaluate (s : Setting) (env : Scope) : Expression → Walk Value
  | .literal v => pure v
  | .identifier name => evaluateVariable s env name
  | .call name args => do
    evaluateFunction s name (← inCall s name (evaluateAll s env args)) none
  | .unary op x =>
    match UnaryOperator.ofSymbol? op with
    | none => throw (.unsupportedOperator op)
    | some _ => do lift (applyOperator op [← evaluate s env x])
  | .binary op l r =>
    match BinaryOperator.ofSymbol? op with
    | none => throw (.unsupportedOperator op)
    | some o => do
      let v ← evaluate s env l
      if ← lift (decides o v) then return v
      lift (applyOperator op [v, ← evaluate s env r])
  | .foreign v => throw (.notExpression .evaluate v.kind)

def evaluateAll (s : Setting) (env : Scope) : List Expression → Walk (List Value)
  | [] => pure []
  | e :: es => do
    let v ← evaluate s env e
    let vs ← evaluateAll s env es
    return v :: vs

end

end FormulaEngine.Walk

import FormulaEngine.Context.Binding
import FormulaEngine.Expression
/-!
# Compilation

The walk that turns an expression into code.
-/
namespace FormulaEngine.Walk

mutual

/-- Compiles an expression. An operator is checked before its operands, and a call after its
arguments. -/
def compile (s : Setting) : Expression → Walk Code
  | .literal v => pure (.constant v)
  | .identifier name => compileVariable s name
  | .call name args => do
    compileFunction s name (← inCall s name (compileAll s args)) none
  | .unary op x =>
    match UnaryOperator.ofSymbol? op with
    | none => throw (.unsupportedOperator op)
    | some _ => do return .operation op [← compile s x]
  | .binary op l r =>
    match BinaryOperator.ofSymbol? op with
    | none => throw (.unsupportedOperator op)
    | some _ => do
      let a ← compile s l
      return .operation op [a, ← compile s r]
  | .foreign v => throw (.notExpression .compile v.kind)

def compileAll (s : Setting) : List Expression → Walk (List Code)
  | [] => pure []
  | e :: es => do
    let c ← compile s e
    let cs ← compileAll s es
    return c :: cs

end

end FormulaEngine.Walk

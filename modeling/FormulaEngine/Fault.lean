import FormulaEngine.Value
/-!
# Faults

Everything that can stop the compilation or the evaluation of a formula.
-/
namespace FormulaEngine

inductive Activity where
  | compile
  | evaluate
deriving DecidableEq

/-- The word for an activity in a message. -/
def Activity.label : Activity → String
  | .compile => "compile"
  | .evaluate => "evaluate"

/-- A reason to stop. -/
inductive Fault where
  /-- A name is used wrongly. -/
  | formula (e : FormulaError)
  /-- An operator or a function of the fixed libraries was stopped. -/
  | trap (t : Trap)
  /-- A client function gave up, with a message of its own. -/
  | client (message : String)
  /-- An expression holds an operator that expressions do not have. -/
  | unsupportedOperator (op : String)
  /-- An operator of two operands is not known. -/
  | unknownBinary (op : String)
  /-- An operator of one operand is not known. -/
  | unknownUnary (op : String)
  /-- An operator has neither one nor two operands. -/
  | operandCount
  /-- A logical operator needs an operand that it does not have. -/
  | missingOperand
  /-- A value of some kind stands where an expression should. -/
  | notExpression (activity : Activity) (kind : String)
  /-- A formula is bound to no context and none was given. -/
  | noContext
deriving DecidableEq

namespace Fault

/-- A result that may be trapped as a result that may be faulty. -/
def ofTrap {α : Type} : Except Trap α → Except Fault α
  | .ok a => .ok a
  | .error t => .error (.trap t)

/-- The text that reports a fault, for the faults that have one. -/
def message? : Fault → Option String
  | .formula e => some e.message
  | .trap _ => none
  | .client m => some m
  | .unsupportedOperator op => some ("Unsupported operator: " ++ Text.quoted op)
  | .unknownBinary op => some ("Unknown binary operator: " ++ Text.quoted op)
  | .unknownUnary op => some ("Unknown unary operator: " ++ Text.quoted op)
  | .operandCount => none
  | .missingOperand => none
  | .notExpression a k => some ("Cannot " ++ a.label ++ " node of type " ++ k)
  | .noContext => some "CompiledFormula has no compile scope to evaluate in"

end Fault

end FormulaEngine

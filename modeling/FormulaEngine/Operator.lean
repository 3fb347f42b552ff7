import FormulaEngine.Fault
import FormulaEngine.Function.Mathematics
/-!
# Operators

The operators of formulas, by symbol, and their results on operands that have been evaluated. An
operand that is an error is the result, the first of two.
-/
namespace FormulaEngine
open Binary64

inductive Arithmetic where
  | add
  | subtract
  | multiply
  | divide
  | remainder
  | power
deriving DecidableEq

inductive Comparison where
  | equal
  | different
  | greater
  | less
  | greaterEqual
  | lessEqual
deriving DecidableEq

/-- The operators that may leave their second operand unevaluated. -/
inductive Logical where
  | and
  | or
deriving DecidableEq

inductive BinaryOperator where
  | arithmetic (op : Arithmetic)
  | concatenate
  | comparison (op : Comparison)
  | logical (op : Logical)
deriving DecidableEq

inductive UnaryOperator where
  | minus
  | plus
  | not
deriving DecidableEq

def Arithmetic.ofSymbol? : String → Option Arithmetic
  | "+" => some .add
  | "-" => some .subtract
  | "*" => some .multiply
  | "/" => some .divide
  | "%" => some .remainder
  | "^" => some .power
  | _ => none

def Comparison.ofSymbol? : String → Option Comparison
  | "=" => some .equal
  | "==" => some .equal
  | "<>" => some .different
  | "!=" => some .different
  | ">" => some .greater
  | "<" => some .less
  | ">=" => some .greaterEqual
  | "<=" => some .lessEqual
  | _ => none

def Logical.ofSymbol? : String → Option Logical
  | "and" => some .and
  | "&&" => some .and
  | "or" => some .or
  | "||" => some .or
  | _ => none

/-- The operator of two operands with a given symbol. -/
def BinaryOperator.ofSymbol? (s : String) : Option BinaryOperator :=
  match Logical.ofSymbol? s with
  | some op => some (.logical op)
  | none =>
    match Comparison.ofSymbol? s with
    | some op => some (.comparison op)
    | none => if s = "&" then some .concatenate else (Arithmetic.ofSymbol? s).map .arithmetic

/-- The operator of one operand with a given symbol. -/
def UnaryOperator.ofSymbol? : String → Option UnaryOperator
  | "-" => some .minus
  | "+" => some .plus
  | "!" => some .not
  | "not" => some .not
  | _ => none

/-- The truth value of the first operand that decides the result. -/
def Logical.deciding : Logical → Bool
  | .and => false
  | .or => true

def Arithmetic.onNumbers (x y : Float) : Arithmetic → Float
  | .add => x + y
  | .subtract => x - y
  | .multiply => x * y
  | .divide => x / y
  | .remainder => Binary64.remainder x y
  | .power => MathFunction.power x y

/-- Two values as texts, one after the other. -/
def Value.join (v w : Value) : Except Trap Value := do
  let s ← v.toText
  return .text (s ++ (← w.toText))

/-- Two values as numbers, the first one first. -/
def Value.numbers (v w : Value) : Except Trap (Float × Float) := do
  let x ← v.number
  return (x, ← w.number)

def Value.isText : Value → Bool
  | .text _ => true
  | _ => false

/-- An arithmetic operator on two values that are no errors; a sum with a text joins texts. -/
def Arithmetic.onValues (op : Arithmetic) (v w : Value) : Except Trap Value :=
  if op = .add && (v.isText || w.isText) then v.join w
  else (v.numbers w).map fun (x, y) => .float (op.onNumbers x y)

/-- A comparison by the answers to three questions. -/
def Comparison.decide (op : Comparison) (equal less greater : Bool) : Bool :=
  match op with
  | .equal => equal
  | .different => !equal
  | .greater => greater
  | .less => less
  | .greaterEqual => greater || equal
  | .lessEqual => less || equal

/-- A comparison of two values that are no errors: two texts by code points, others as numbers. -/
def Comparison.onValues (op : Comparison) (v w : Value) : Except Trap Value :=
  match v, w with
  | .text s, .text t => .ok (.bool (op.decide (s = t) (s < t) (t < s)))
  | v, w => (v.numbers w).map fun (x, y) => .bool (op.decide (x == y) (x < y) (y < x))

/-- A logical operator on two values that are no errors answers one of them. -/
def Logical.onValues (op : Logical) (v w : Value) : Except Trap Value :=
  v.truth.map fun b => if b = op.deciding then v else w

/-- An operator of two operands on values that are no errors. -/
def BinaryOperator.onValues (op : BinaryOperator) (v w : Value) : Except Trap Value :=
  match op with
  | .arithmetic op => op.onValues v w
  | .concatenate => v.join w
  | .comparison op => op.onValues v w
  | .logical op => op.onValues v w

/-- An operator of one operand on a value that is no error. -/
def UnaryOperator.onValue (op : UnaryOperator) (v : Value) : Except Trap Value :=
  match op with
  | .minus => v.number.map fun x => .float (-x)
  | .plus => v.number.map .float
  | .not => v.truth.map fun b => .bool (!b)

/-- The operator of one operand with a symbol, on a value. -/
def applyUnary (symbol : String) (v : Value) : Except Fault Value :=
  match v with
  | .error e => .ok (.error e)
  | v =>
    match UnaryOperator.ofSymbol? symbol with
    | some op => Fault.ofTrap (op.onValue v)
    | none => .error (.unknownUnary symbol)

/-- The operator of two operands with a symbol, on two values. With a symbol that is not known the
operands are still taken as numbers first. -/
def applyBinary (symbol : String) (v w : Value) : Except Fault Value :=
  match Value.firstError? [v, w] with
  | some e => .ok (.error e)
  | none =>
    match BinaryOperator.ofSymbol? symbol with
    | some op => Fault.ofTrap (op.onValues v w)
    | none =>
      match v.numbers w with
      | .ok _ => .error (.unknownBinary symbol)
      | .error t => .error (.trap t)

/-- The operator with a symbol on a list of operands, whose number tells the two families apart. -/
def applyOperator (symbol : String) (operands : List Value) : Except Fault Value :=
  match operands with
  | [v] => applyUnary symbol v
  | [v, w] => applyBinary symbol v w
  | _ => .error .operandCount

theorem applyUnary_error (symbol : String) (e : FormulaError) :
    applyUnary symbol (.error e) = .ok (.error e) := rfl

end FormulaEngine

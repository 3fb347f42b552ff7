import FormulaEngine.Function.Callable
/-!
# Mathematical functions

The elementary functions on numbers. Outside its domain a function is no number, and a result
beyond the largest double is infinite.
-/
namespace FormulaEngine
open Binary64

inductive MathFunction where
  | abs
  | acos
  | asin
  | atan
  | atan2
  | ceil
  | cos
  | exp
  | floor
  | pow
  | sin
  | sqrt
  | tan
deriving DecidableEq

namespace MathFunction

/-- All elementary functions, in the order of the catalogue. -/
def all : List MathFunction :=
  [.abs, .acos, .asin, .atan, .atan2, .ceil, .cos, .exp, .floor, .pow, .sin, .sqrt, .tan]

/-- The name by which formulas call the function. -/
def name : MathFunction → String
  | .abs => "abs"
  | .acos => "acos"
  | .asin => "asin"
  | .atan => "atan"
  | .atan2 => "atan2"
  | .ceil => "ceil"
  | .cos => "cos"
  | .exp => "exp"
  | .floor => "floor"
  | .pow => "pow"
  | .sin => "sin"
  | .sqrt => "sqrt"
  | .tan => "tan"

def ofName? (s : String) : Option MathFunction :=
  all.find? (·.name == s)

def spec : MathFunction → FunctionSpec
  | .abs => .exactly 1 .arithmetic
  | .acos => .exactly 1 .trigonometric
  | .asin => .exactly 1 .trigonometric
  | .atan => .exactly 1 .trigonometric
  | .atan2 => .exactly 2 .trigonometric
  | .ceil => .exactly 1 .arithmetic
  | .cos => .exactly 1 .trigonometric
  | .exp => .exactly 1 .arithmetic
  | .floor => .exactly 1 .arithmetic
  | .pow => .exactly 2 .arithmetic
  | .sin => .exactly 1 .trigonometric
  | .sqrt => .exactly 1 .arithmetic
  | .tan => .exactly 1 .trigonometric

/-- A power. A negative power of zero is infinite, and so is a power that is too large, whatever
its sign. -/
def power (base exponent : Float) : Float :=
  if base == 0.0 && exponent < 0.0 then infinity
  else
    let r := base.pow exponent
    if base.isFinite && exponent.isFinite && r.isInf then infinity else r

def unary (f : Float → Float) (args : List Value) : Except Trap Value := do
  return .float (f (← numberArgument args 0))

def binary (f : Float → Float → Float) (args : List Value) : Except Trap Value := do
  let x ← numberArgument args 0
  return .float (f x (← numberArgument args 1))

/-- A rounding to an integer; an infinity or a NaN stays, and a zero result has no sign. -/
def rounding (f : Float → Float) (x : Float) : Float :=
  if x.isFinite then f x + 0.0 else x

def apply : MathFunction → List Value → Except Trap Value
  | .abs => unary Float.abs
  | .acos => unary Float.acos
  | .asin => unary Float.asin
  | .atan => unary Float.atan
  | .atan2 => binary Float.atan2
  | .ceil => unary (rounding Float.ceil)
  | .cos => unary Float.cos
  | .exp => unary Float.exp
  | .floor => unary (rounding Float.floor)
  | .pow => binary power
  | .sin => unary Float.sin
  | .sqrt => unary Float.sqrt
  | .tan => unary Float.tan

/-- The function as a callable, which draws nothing. -/
def callable (f : MathFunction) : Callable :=
  .pure f.apply

end MathFunction

end FormulaEngine

import FormulaEngine.Function.Callable
import FormulaEngine.Calendar.Epoch
import FormulaEngine.Calendar.Iso
/-!
# Built-in functions

The functions that every formula can call: conversions, rounding, logarithms, random numbers,
distances on the globe and dates.
-/
namespace FormulaEngine
open Binary64

inductive Builtin where
  | boolean
  | frac
  | isFinite
  | ln
  | log
  | number
  | random
  | round
  | string
  | trunc
  | greatCircleDistance
  | secondsToDate
  | month
deriving DecidableEq

namespace Builtin

/-- All built-in functions, in the order of the catalogue. -/
def all : List Builtin :=
  [ .boolean, .frac, .isFinite, .ln, .log, .number, .random, .round, .string, .trunc,
    .greatCircleDistance, .secondsToDate, .month ]

/-- The name by which formulas call the function. -/
def name : Builtin → String
  | .boolean => "boolean"
  | .frac => "frac"
  | .isFinite => "isFinite"
  | .ln => "ln"
  | .log => "log"
  | .number => "number"
  | .random => "random"
  | .round => "round"
  | .string => "string"
  | .trunc => "trunc"
  | .greatCircleDistance => "greatCircleDistance"
  | .secondsToDate => "secondsToDate"
  | .month => "month"

def ofName? (s : String) : Option Builtin :=
  all.find? (·.name == s)

def spec : Builtin → FunctionSpec
  | .boolean => .exactly 1 .conversion
  | .frac => .exactly 1 .arithmetic
  | .isFinite => .exactly 1 .other
  | .ln => .exactly 1 .arithmetic
  | .log => .exactly 1 .arithmetic
  | .number => .exactly 1 .conversion
  | .random => ⟨0, some 2, .random, true, false, by simp⟩
  | .round => ⟨1, some 2, .arithmetic, false, false, by simp⟩
  | .string => .exactly 1 .conversion
  | .trunc => .exactly 1 .arithmetic
  | .greatCircleDistance => .exactly 4 .other
  | .secondsToDate => .exactly 1 .dateTime
  | .month => .exactly 1 .dateTime

/-- The natural logarithm; none below zero, and negative infinity at zero. -/
def naturalLog (x : Float) : Float :=
  if x.isNaN || x < 0.0 then nan
  else if x == 0.0 then -infinity
  else x.log

/-- The greatest integer that is at most half above a number. -/
def roundHalfUp (x : Float) : Float :=
  if x.isFinite then (x + 0.5).floor + 0.0 else x

/-- A number rounded to a number of decimal places; none where their power of ten is out of
range. -/
def roundPlaces (x places : Float) : Float :=
  let unit := (10.0 : Float).pow (truncate places)
  if unit == 0.0 || unit.isInf then nan else roundHalfUp (unit * x) / unit

/-- The second argument of a rounding as a number of places; a count beyond all doubles acts like
infinity. -/
def places (v : Value) : Float :=
  match v.number with
  | .ok x => x
  | .error _ => infinity

def radians (x : Float) : Float :=
  x * (3.141592653589793 / 180.0)

/-- A trigonometric function of an angle, which has to be finite. -/
def ofAngle (f : Float → Float) (x : Float) : Except Trap Float :=
  if x.isInf then .error .infiniteAngle else .ok (f x)

def diameter : Float := 12742.0

/-- The distance in kilometres between two points on the globe, by the haversine formula. Rounding
can push the haversine just outside the interval from zero to one. -/
def distance (lat₁ long₁ lat₂ long₂ : Float) : Except Trap Float := do
  let dlat := radians (lat₂ - lat₁)
  let dlong := radians (long₂ - long₁)
  let s ← ofAngle Float.sin (dlat / 2.0)
  let c₁ ← ofAngle Float.cos (radians lat₁)
  let c₂ ← ofAngle Float.cos (radians lat₂)
  let t ← ofAngle Float.sin (dlong / 2.0)
  let a := s.pow 2.0 + c₁ * c₂ * t.pow 2.0
  let a := if a.isNaN then a else if a < 0.0 then 0.0 else if 1.0 < a then 1.0 else a
  return diameter * Float.atan2 a.sqrt (1.0 - a).sqrt

/-- The name of the month of a date, of a number of seconds since 1970 or of a written date. -/
def monthOf (v : Value) : Except Trap Value := do
  let name (t : Option Date) : Value := (t.map fun t => Value.text t.monthName).getD .null
  match v with
  | .date t => return name t
  | .moment t => return name t.date
  | .text s => return name (Calendar.Iso.read? (Text.trim s.toList))
  | v =>
    if ← v.isFiniteNumber then return name (Date.ofSeconds? (← v.number)) else return .null

/-- The written date of a number of seconds since 1970. -/
def dateOfSeconds (v : Value) : String :=
  match v.number with
  | .ok x => ((Date.ofSeconds? x).map Date.slashed).getD "Invalid Date"
  | .error _ => "Invalid Date"

/-- A random number below one, below a bound, or between two bounds. -/
def between (draw : Float) (args : List Value) : Except Trap Value :=
  match argument args 0, argument args 1 with
  | .null, _ => .ok (.float draw)
  | v, .null => do return .float ((← v.number) * draw)
  | v, w => do
    let low ← v.number
    return .float (low + ((← w.number) - low) * draw)

def ofNumber (f : Float → Float) : Callable :=
  .pure fun args => do return .float (f (← numberArgument args 0))

def callable : Builtin → Callable
  | .boolean => .pure fun args => do return .bool (← (argument args 0).truth)
  | .frac => ofNumber fun x => x - truncate x
  | .isFinite => .pure fun args => do return .bool (← (argument args 0).isFiniteNumber)
  | .ln => ofNumber naturalLog
  | .log => ofNumber fun x => naturalLog x / (10.0 : Float).log
  | .number => ofNumber id
  | .random => .random between
  | .round => .pure fun args => do
    let x ← numberArgument args 0
    match argument args 1 with
    | .null => return .float (roundHalfUp x)
    | n => return .float (roundPlaces x (places n))
  | .string => .pure fun args => do return .text (← (argument args 0).toText)
  | .trunc => ofNumber truncate
  | .greatCircleDistance => .pure fun args => do
    let lat₁ ← numberArgument args 0
    let long₁ ← numberArgument args 1
    let lat₂ ← numberArgument args 2
    return .float (← distance lat₁ long₁ lat₂ (← numberArgument args 3))
  | .secondsToDate => .pure fun args => .ok (.text (dateOfSeconds (argument args 0)))
  | .month => .pure fun args => monthOf (argument args 0)

/-- The function draws a random number exactly if its specification says so. -/
theorem drawCount_callable (f : Builtin) :
    f.callable.drawCount = if f.spec.isRandom then 1 else 0 := by
  cases f <;> rfl

end Builtin

end FormulaEngine

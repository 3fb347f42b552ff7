import FormulaEngine.Error
import FormulaEngine.Calendar.Date
import FormulaEngine.Text.Blank
/-!
# Values

The values that formulas compute with, and how operators and functions see them: as a number, as a
truth value, or as a text.
-/
namespace FormulaEngine

/-- A value. An error in the use of a name is a value too. -/
inductive Value where
  | null
  | bool (b : Bool)
  | int (n : Int)
  | float (x : Float)
  | text (s : String)
  | list (vs : List Value)
  | date (t : Date)
  | moment (t : Moment)
  | error (e : FormulaError)
deriving Inhabited

/-- What can stop an operator or a function of the fixed libraries. -/
inductive Trap where
  /-- An integer lies beyond the range of doubles. -/
  | overflow
  /-- The sine or cosine of an infinite angle was needed. -/
  | infiniteAngle
  /-- An integer has too many digits to be written as a text. -/
  | tooManyDigits
deriving DecidableEq

namespace Value

def isError : Value → Bool
  | .error _ => true
  | _ => false

def error? : Value → Option FormulaError
  | .error e => some e
  | _ => none

def firstError? (vs : List Value) : Option FormulaError :=
  vs.findSome? error?

@[simp] theorem firstError?_nil : firstError? [] = none := rfl

theorem firstError?_cons (v : Value) (vs : List Value) :
    firstError? (v :: vs) = v.error?.or (firstError? vs) := by
  unfold firstError?
  rw [List.findSome?_cons]
  cases v.error? <;> rfl

theorem firstError?_eq_none_iff {vs : List Value} :
    firstError? vs = none ↔ ∀ v ∈ vs, v.isError = false := by
  simp only [firstError?, List.findSome?_eq_none_iff]
  exact forall₂_congr fun v _ => by cases v <;> simp [error?, isError]

/-- The name of the kind of a value. -/
def kind : Value → String
  | .null => "NoneType"
  | .bool _ => "bool"
  | .int _ => "int"
  | .float _ => "float"
  | .text _ => "str"
  | .list _ => "list"
  | .date _ => "date"
  | .moment _ => "datetime"
  | .error e => e.kind

def double (n : Int) : Except Trap Float :=
  match Binary64.ofInt? n with
  | some x => .ok x
  | none => .error .overflow

/-- A text as a number: a blank text is zero, and a text that writes no number is none. -/
def numberOfText (s : String) : Float :=
  match Text.trim s.toList with
  | [] => 0.0
  | cs => (Numeral.read? cs).getD Binary64.nan

/-- A value as a number: nothing is zero, the truth values are zero and one. -/
def number : Value → Except Trap Float
  | .null => .ok 0.0
  | .bool b => .ok (if b then 1.0 else 0.0)
  | .int n => double n
  | .float x => .ok x
  | .text s => .ok (numberOfText s)
  | _ => .ok Binary64.nan

/-- A value as a truth value: nothing, zero, NaN and the empty text are false. -/
def truth : Value → Except Trap Bool
  | .null => .ok false
  | .bool b => .ok b
  | .int n => if n = 0 then .ok false else (double n).map fun _ => true
  | .float x => .ok (x != 0.0 && !x.isNaN)
  | .text s => .ok (s ≠ "")
  | _ => .ok true

/-- Whether a value is a finite number; truth values are no numbers here. -/
def isFiniteNumber : Value → Except Trap Bool
  | .int n => (double n).map fun _ => true
  | .float x => .ok x.isFinite
  | _ => .ok false

/-- The written form of a date inside a list. -/
def writtenDate (t : Date) : String :=
  "datetime.date(" ++ ", ".intercalate ([t.year, t.month, t.day].map Numeral.ofNat) ++ ")"

/-- The written form of a moment inside a list; seconds and microseconds at the end are left out
where they are zero. -/
def writtenMoment (t : Moment) : String :=
  let rest :=
    if t.microsecond ≠ 0 then [t.second, t.microsecond]
    else if t.second ≠ 0 then [t.second]
    else []
  let parts := [t.date.year, t.date.month, t.date.day, t.hour, t.minute] ++ rest
  "datetime.datetime(" ++ ", ".intercalate (parts.map Numeral.ofNat) ++ ")"

/-- The most digits that the text of an integer may have. -/
def maxDigits : Nat := 4300

/-- An integer as a text, its sign not counted among its digits. -/
def textOfInt (n : Int) : Except Trap String :=
  if (Numeral.digits n.natAbs).length ≤ maxDigits then .ok (Numeral.ofInt n)
  else .error .tooManyDigits

mutual

/-- The written form of a value inside a list or a formula. -/
def written : Value → Except Trap String
  | .null => .ok "None"
  | .bool b => .ok (if b then "True" else "False")
  | .int n => textOfInt n
  | .float x => .ok (Numeral.plain.float x)
  | .text s => .ok (Text.quoted s)
  | .list vs => do return "[" ++ ", ".intercalate (← writtenAll vs) ++ "]"
  | .date t => .ok (writtenDate t)
  | .moment t => .ok (writtenMoment t)
  | .error e => .ok e.written

def writtenAll : List Value → Except Trap (List String)
  | [] => .ok []
  | v :: vs => do
    let w ← v.written
    let ws ← writtenAll vs
    return w :: ws

end

/-- A double as a text: an integer has no point, and words stand for the rest. -/
def textOfFloat (x : Float) : String :=
  if x.isNaN then "NaN"
  else if x.isInf then (if 0.0 < x then "Infinity" else "-Infinity")
  else if Binary64.isIntegral x then Numeral.ofInt (Binary64.toInt x)
  else Numeral.plain.float x

def toText : Value → Except Trap String
  | .null => .ok "null"
  | .bool b => .ok (if b then "true" else "false")
  | .int n => textOfInt n
  | .float x => .ok (textOfFloat x)
  | .text s => .ok s
  | .list vs => (Value.list vs).written
  | .date t => .ok t.iso
  | .moment t => .ok (t.iso ' ')
  | .error e => .ok e.message

end Value

end FormulaEngine

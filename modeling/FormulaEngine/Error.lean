import FormulaEngine.Function.Spec
import FormulaEngine.Text.Quoted
/-!
# Formula errors

What can be wrong with a formula: a name that no scope knows, or a call with too few or too many
arguments. Such an error is either raised or carried along as a value.
-/
namespace FormulaEngine

/-- The argument bound that a call breaks; other texts can be given in its place. -/
inductive Bound where
  | least
  | most
  | named (text : String)
deriving DecidableEq

def Bound.label : Bound → String
  | .least => "min"
  | .most => "max"
  | .named s => s

def Bound.ofLabel (s : String) : Bound :=
  if s = "min" then .least else if s = "max" then .most else .named s

/-- An error in the use of a name. -/
inductive FormulaError where
  /-- No scope knows the variable. -/
  | variable (name : String)
  /-- No library knows the function. -/
  | function (name : String)
  /-- The number of arguments is out of the bounds of the function. -/
  | arguments (name : String) (spec : FunctionSpec) (bound : Bound)
  /-- Any other error that concerns a name, with a text of its own if there is one. -/
  | general (name : String) (text : Option String)
deriving DecidableEq

namespace FormulaError

def name : FormulaError → String
  | .variable n => n
  | .function n => n
  | .arguments n _ _ => n
  | .general n _ => n

def kind : FormulaError → String
  | .variable _ => "VarReferenceError"
  | .function _ => "FuncReferenceError"
  | .arguments _ _ _ => "FuncArgsError"
  | .general _ _ => "FormulaError"

/-- The words for the numbers of arguments within bounds. -/
def expectation (s : FunctionSpec) : String :=
  match s.most with
  | none => "at least " ++ Numeral.ofNat s.least
  | some m =>
    if s.least = m then "exactly " ++ Numeral.ofNat m
    else Numeral.ofNat s.least ++ " to " ++ Numeral.ofNat m

/-- The text that reports the error; an error without a text is reported by its name. -/
def message : FormulaError → String
  | .variable n => "Unrecognized variable: " ++ n
  | .function n => "Unrecognized function: " ++ n
  | .arguments n s _ => n ++ "() expects " ++ expectation s ++ " argument(s)"
  | .general n none => n
  | .general n (some t) => if t = "" then n else t

/-- The written form of the error as a value in a list. -/
def written (e : FormulaError) : String :=
  e.kind ++ "(" ++ Text.quoted e.message ++ ")"

/-- Two errors count as the same if they are of one kind and about one name. -/
def same (a b : FormulaError) : Bool :=
  a.kind == b.kind && a.name == b.name

/-- The errors of a list without those that repeat an earlier one. -/
def distinct : List FormulaError → List FormulaError
  | [] => []
  | e :: r => e :: (distinct r).filter (!e.same ·)

end FormulaError

end FormulaEngine

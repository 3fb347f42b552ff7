import FormulaEngine.Function.Library
import FormulaEngine.Dependency
/-!
# Settings

The tables that give the names of a formula their meaning: constants, declared environment names,
instance variables and client functions. The first scope that knows a name decides.
-/
namespace FormulaEngine

/-- Values by name. A name that holds nothing counts as absent. -/
abbrev Scope := Table String Value

/-- The value of a name in a scope, if it holds one. -/
def Scope.value? (s : Scope) (name : String) : Option Value :=
  match s.get? name with
  | some .null => none
  | v => v

def constants : List (String × Float) :=
  [("pi", 3.141592653589793), ("π", 3.141592653589793), ("e", 2.718281828459045)]

def constant? (name : String) : Option Value :=
  (constants.lookup name).map .float

/-- The tables of a context. -/
structure Setting where
  /-- The name of the context. -/
  label : String
  /-- The instance variables. -/
  instanceVariables : Scope
  /-- The names that the environment of an evaluation supplies. -/
  declared : List String
  functions : Table String ClientEntry
  specs : Table String FunctionSpec
  /-- What the formulas of the context compute. -/
  owner : Option Endpoint
  /-- Whether calls with too many arguments are refused. -/
  strict : Bool

namespace Setting

def bare (label : String) : Setting :=
  ⟨label, .empty, [], .empty, .empty, none, false⟩

def setVariable (s : Setting) (name : String) (v : Value) : Setting :=
  { s with instanceVariables := s.instanceVariables.insert name v }

def dropVariable (s : Setting) (name : String) : Setting :=
  { s with instanceVariables := s.instanceVariables.erase name }

def setFunction (s : Setting) (name : String) (f : ClientEntry) : Setting :=
  { s with functions := s.functions.insert name f }

def dropFunction (s : Setting) (name : String) : Setting :=
  { s with functions := s.functions.erase name }

def setSpec (s : Setting) (name : String) (spec : FunctionSpec) : Setting :=
  { s with specs := s.specs.insert name spec }

def library (s : Setting) : FunctionScope → Library
  | .builtin => .builtin
  | .math => .math
  | .client => .client s.functions s.specs

/-- The first library that has a function of a given name, and the function. -/
def resolve? (s : Setting) (name : String) : Option (Library × Callable) :=
  FunctionScope.all.findSome? fun scope =>
    ((s.library scope).function? name).map fun f => (s.library scope, f)

/-- Whether a name stands for an aggregate function. -/
def isAggregate (s : Setting) (name : String) : Bool :=
  match s.specs.get? name with
  | some spec => spec.isAggregate
  | none => false

@[simp] theorem scope_library (s : Setting) (scope : FunctionScope) :
    (s.library scope).scope = scope := by
  cases scope <;> rfl

/-- A resolved function is the one that its library has under that name. -/
theorem function?_of_resolve? {s : Setting} {name : String} {lib : Library} {f : Callable}
    (h : s.resolve? name = some (lib, f)) :
    lib = s.library lib.scope ∧ lib.function? name = some f := by
  obtain ⟨scope, -, h⟩ := List.exists_of_findSome?_eq_some h
  obtain ⟨g, hg, h⟩ := Option.map_eq_some_iff.1 h
  cases h
  simp [hg]

end Setting

end FormulaEngine

import FormulaEngine.Function.Builtin
import FormulaEngine.Function.Mathematics
import FormulaEngine.Table
/-!
# Function libraries

A library answers which function a name stands for and what its specification is. There are two
fixed libraries and one that the client of a formula supplies.
-/
namespace FormulaEngine

/-- The scopes in which a function name is looked up, in this order. -/
inductive FunctionScope where
  | builtin
  | math
  | client
deriving DecidableEq

namespace FunctionScope

def all : List FunctionScope := [.builtin, .math, .client]

def label : FunctionScope → String
  | .builtin => "builtin"
  | .math => "host_math"
  | .client => "client"

def ofLabel? (s : String) : Option FunctionScope :=
  all.find? (·.label == s)

/-- The written form of a scope inside a formula. -/
def written : FunctionScope → String
  | .builtin => "<FunctionScope.BUILTIN: 'builtin'>"
  | .math => "<FunctionScope.HOST_MATH: 'host_math'>"
  | .client => "<FunctionScope.CLIENT: 'client'>"

end FunctionScope

/-- What a client enters under a function name: a function, or a value that cannot be called. -/
inductive ClientEntry where
  | function (f : List Value → Except Fault Value)
  | value (v : Value)

/-- The function of an entry; clients' functions draw no random numbers. -/
def ClientEntry.callable? : ClientEntry → Option Callable
  | .function f => some (.client f)
  | .value _ => none

/-- The functions of one scope and their specifications. A function without a specification takes
any number of arguments. -/
structure Library where
  scope : FunctionScope
  function? : String → Option Callable
  spec? : String → Option FunctionSpec

namespace Library

def builtin : Library where
  scope := .builtin
  function? s := (Builtin.ofName? s).map Builtin.callable
  spec? s := (Builtin.ofName? s).map Builtin.spec

def math : Library where
  scope := .math
  function? s := (MathFunction.ofName? s).map MathFunction.callable
  spec? s := (MathFunction.ofName? s).map MathFunction.spec

def client (functions : Table String ClientEntry) (specs : Table String FunctionSpec) :
    Library where
  scope := .client
  function? s := (functions.get? s).bind ClientEntry.callable?
  spec? s := specs.get? s

/-- The library of a scope for which a client supplies nothing. -/
def bare : FunctionScope → Library
  | s => ⟨s, fun _ => none, fun _ => none⟩

end Library

end FormulaEngine

import FormulaEngine.Number.Numeral
/-!
# Function specifications

How many arguments a function takes, what kind of function it is, and whether it draws random
numbers or aggregates over cases.
-/
namespace FormulaEngine

/-- The kinds of functions that a catalogue lists apart. -/
inductive FunctionCategory where
  | arithmetic
  | conversion
  | dateTime
  | other
  | random
  | statistical
  | trigonometric
deriving DecidableEq

namespace FunctionCategory

/-- All categories, in the order of a catalogue. -/
def all : List FunctionCategory :=
  [.arithmetic, .conversion, .dateTime, .other, .random, .statistical, .trigonometric]

def label : FunctionCategory → String
  | .arithmetic => "arithmetic"
  | .conversion => "conversion"
  | .dateTime => "date_time"
  | .other => "other"
  | .random => "random"
  | .statistical => "statistical"
  | .trigonometric => "trigonometric"

def ofLabel? (s : String) : Option FunctionCategory :=
  all.find? (·.label == s)

theorem label_injective {a b : FunctionCategory} (h : a.label = b.label) : a = b := by
  cases a <;> cases b <;> simp_all [label]

@[simp] theorem ofLabel?_label (c : FunctionCategory) : ofLabel? c.label = some c := by
  cases c <;> rfl

end FunctionCategory

/-- The argument bounds and the classification of a function; without an upper bound it takes any
number of further arguments. -/
structure FunctionSpec where
  least : Nat
  most : Option Nat
  category : FunctionCategory
  isRandom : Bool
  isAggregate : Bool
  least_le : ∀ m ∈ most, least ≤ m := by simp
deriving DecidableEq

/-- Why a pair of argument bounds is refused. -/
inductive BoundsError where
  | negativeLeast (least : Int)
  | mostBelowLeast (most least : Int)
deriving DecidableEq

def BoundsError.message : BoundsError → String
  | .negativeLeast n => "min_args must be non-negative, got " ++ Numeral.ofInt n
  | .mostBelowLeast m n =>
    "max_args (" ++ Numeral.ofInt m ++ ") is less than min_args (" ++ Numeral.ofInt n ++ ")"

namespace FunctionSpec

/-- The specification with given bounds, if they are bounds: the lower one is not negative, and the
upper one not below it. -/
def ofBounds (least : Int) (most : Option Int) (category : FunctionCategory)
    (isRandom isAggregate : Bool) : Except BoundsError FunctionSpec :=
  match least, most with
  | .negSucc n, _ => .error (.negativeLeast (.negSucc n))
  | .ofNat n, none => .ok ⟨n, none, category, isRandom, isAggregate, by simp⟩
  | .ofNat n, some m =>
    if h : n ≤ m then
      .ok ⟨n, some m.toNat, category, isRandom, isAggregate, by simp; omega⟩
    else .error (.mostBelowLeast m n)

/-- The specification of a function that takes one fixed number of arguments, and neither draws nor
aggregates. -/
def exactly (n : Nat) (category : FunctionCategory) : FunctionSpec :=
  ⟨n, some n, category, false, false, by simp⟩

/-- Whether a number of arguments lies within both bounds. -/
def accepts (s : FunctionSpec) (n : Int) : Bool :=
  s.least ≤ n && s.most.all (n ≤ ·)

end FunctionSpec

end FormulaEngine

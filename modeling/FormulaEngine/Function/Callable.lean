import FormulaEngine.Fault
/-!
# Callables

A function of a formula: it computes a value from the list of its arguments, and may need one
random number for that. An argument that is not supplied counts as nothing, and one that is not
used is ignored.
-/
namespace FormulaEngine

/-- A source of random numbers and how many of them have been drawn. -/
structure Draws where
  source : Nat → Float
  taken : Nat

namespace Draws

def next (d : Draws) : Float :=
  d.source d.taken

def advance (d : Draws) : Draws :=
  { d with taken := d.taken + 1 }

/-- A source that repeats a list of numbers for ever; without numbers it repeats one half. -/
def cycle (xs : List Float) : Draws where
  source n := xs.getD (n % xs.length) 0.5
  taken := 0

end Draws

/-- A function that formulas can call. -/
inductive Callable where
  /-- The result depends on the arguments alone. -/
  | pure (f : List Value → Except Trap Value)
  /-- The result depends on the arguments and on one random number, drawn before anything else. -/
  | random (f : Float → List Value → Except Trap Value)
  /-- A function that a client supplies, which may give up for a reason of its own. -/
  | client (f : List Value → Except Fault Value)

namespace Callable

/-- The outcome of a call, and the source of random numbers after it. -/
def call (f : Callable) (args : List Value) (d : Draws) : Except Fault Value × Draws :=
  match f with
  | .pure f => (Fault.ofTrap (f args), d)
  | .random f => (Fault.ofTrap (f d.next args), d.advance)
  | .client f => (f args, d)

/-- The number of random numbers that one call draws. -/
def drawCount : Callable → Nat
  | .pure _ => 0
  | .random _ => 1
  | .client _ => 0

end Callable

def argument (args : List Value) (i : Nat) : Value :=
  args.getD i .null

/-- The argument at a position as a number. -/
def numberArgument (args : List Value) (i : Nat) : Except Trap Float :=
  (argument args i).number

end FormulaEngine

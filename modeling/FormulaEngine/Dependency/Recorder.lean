import FormulaEngine.Dependency
import FormulaEngine.Table
/-!
# The dependency recorder

A manager that keeps the edges that contexts report, indexed by both ends. An edge that repeats one
of the same dependent is dropped, and clearing a dependent drops all of its edges.
-/
namespace FormulaEngine

/-- The edges held: for each dependent the edges from it, in order of registration, and for each
thing that is read the dependents that read it. -/
structure Recorder where
  edges : Table (Option Endpoint) (List Dependency)
  readers : Table Endpoint (List (Option Endpoint))

namespace Recorder

def empty : Recorder := ⟨.empty, .empty⟩

/-- The edges from a dependent, in order of registration. -/
def dependenciesOf (r : Recorder) (dependent : Option Endpoint) : List Dependency :=
  (r.edges.get? dependent).getD []

/-- What a dependent reads, in order of listed ends. -/
def independentsOf (r : Recorder) (dependent : Option Endpoint) : List Endpoint :=
  (((r.dependenciesOf dependent).map Dependency.independent).eraseDups).mergeSort Endpoint.le

def readersOf (r : Recorder) (independent : Endpoint) : List (Option Endpoint) :=
  (r.readers.get? independent).getD []

/-- The dependents that read something, in order of listed ends. -/
def dependentsOf (r : Recorder) (independent : Endpoint) : List (Option Endpoint) :=
  (r.readersOf independent).mergeSort Endpoint.le?

def register (r : Recorder) (d : Dependency) : Recorder :=
  let known := r.dependenciesOf d.dependent
  if known.any (·.repeats d) then r
  else
    { edges := r.edges.insert d.dependent (known ++ [d])
      readers := r.readers.insert d.independent ((r.readersOf d.independent).insert d.dependent) }

/-- Removes a dependent from those that read something; nothing is kept that nobody reads. -/
def dropReader (dependent : Option Endpoint) (readers : Table Endpoint (List (Option Endpoint)))
    (independent : Endpoint) : Table Endpoint (List (Option Endpoint)) :=
  match readers.get? independent with
  | none => readers
  | some known =>
    match known.filter (· ≠ dependent) with
    | [] => readers.erase independent
    | rest => readers.insert independent rest

def clear (r : Recorder) (dependent : Option Endpoint) : Recorder where
  edges := r.edges.erase dependent
  readers :=
    ((r.dependenciesOf dependent).map Dependency.independent).foldl (dropReader dependent) r.readers

def receive (r : Recorder) : Delivery → Recorder
  | .register d => r.register d
  | .clear dependent => r.clear (some dependent)

def size (r : Recorder) : Nat :=
  (r.edges.values.map List.length).foldr (· + ·) 0

/-- All edges, by dependent in order of listed ends. -/
def edgeList (r : Recorder) : List (Option Endpoint × List Dependency) :=
  r.edges.entries.mergeSort fun a b => Endpoint.le? a.1 b.1

/-- All dependents, by what they read, both in order of listed ends. -/
def readerList (r : Recorder) : List (Endpoint × List (Option Endpoint)) :=
  (r.readers.entries.map fun e => (e.1, e.2.mergeSort Endpoint.le?)).mergeSort
    fun a b => Endpoint.le a.1 b.1

@[simp] theorem dependenciesOf_empty (d : Option Endpoint) : empty.dependenciesOf d = [] := rfl

/-- A registration appends the edge to those of its dependent, unless it repeats one of them. -/
theorem dependenciesOf_register (r : Recorder) (d : Dependency) (x : Option Endpoint) :
    (r.register d).dependenciesOf x =
      if d.dependent = x ∧ (r.dependenciesOf x).any (·.repeats d) = false then
        r.dependenciesOf x ++ [d]
      else r.dependenciesOf x := by
  unfold register
  dsimp only
  split
  next h => split <;> simp_all
  next h =>
    show ((r.edges.insert _ _).get? x).getD [] = _
    rw [Table.get?_insert]
    by_cases hx : d.dependent = x
    · subst hx
      simp [h]
    · rw [if_neg hx, if_neg (by simp [hx])]
      rfl

/-- Clearing a dependent leaves the edges of the others. -/
theorem dependenciesOf_clear (r : Recorder) (d x : Option Endpoint) :
    (r.clear d).dependenciesOf x = if d = x then [] else r.dependenciesOf x := by
  show ((r.edges.erase d).get? x).getD [] = _
  rw [Table.get?_erase]
  split <;> rfl

end Recorder

end FormulaEngine

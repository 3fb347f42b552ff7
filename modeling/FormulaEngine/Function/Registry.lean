import FormulaEngine.Function.Library
/-!
# The function registry

A catalogue of function specifications by name. A name once registered keeps its specification; to
register it again is harmless with the same specification and refused with another.
-/
namespace FormulaEngine

/-- A catalogue of specifications, in order of registration. -/
structure Registry where
  specs : Table String FunctionSpec

namespace Registry

def empty : Registry := ⟨.empty⟩

/-- A name was registered with another specification before. -/
structure Conflict where
  name : String
deriving DecidableEq

def Conflict.message (c : Conflict) : String :=
  "Function " ++ Text.quoted c.name ++ " is already registered with a different spec"

def get? (r : Registry) (name : String) : Option FunctionSpec :=
  r.specs.get? name

def contains (r : Registry) (name : String) : Bool :=
  r.specs.contains name

def size (r : Registry) : Nat :=
  r.specs.size

/-- Registers a specification under a name. -/
def register (r : Registry) (name : String) (spec : FunctionSpec) : Except Conflict Registry :=
  match r.get? name with
  | none => .ok ⟨r.specs.insert name spec⟩
  | some known => if known = spec then .ok r else .error ⟨name⟩

/-- Registers one specification after the other up to the first conflict. Answers the catalogue
that results, and the conflict. -/
def registerAll (r : Registry) : List (String × FunctionSpec) → Registry × Option Conflict
  | [] => (r, none)
  | (name, spec) :: rest =>
    match r.register name spec with
    | .ok r' => registerAll r' rest
    | .error c => (r, some c)

/-- The catalogue of the built-in and the elementary functions. -/
def standard : Registry :=
  (empty.registerAll
    (Builtin.all.map (fun f => (f.name, f.spec)) ++
      MathFunction.all.map fun f => (f.name, f.spec))).1

def names (r : Registry) : List String :=
  r.specs.keys.mergeSort (· ≤ ·)

/-- The registered names of a category in code point order; a text that names no category has
none. -/
def namesIn (r : Registry) (category : String) : List String :=
  ((r.specs.entries.filter (·.2.category.label = category)).map Prod.fst).mergeSort (· ≤ ·)

/-- What a registration does to the answers of the catalogue. -/
theorem get?_of_register {r r' : Registry} {name : String} {spec : FunctionSpec}
    (h : r.register name spec = .ok r') (x : String) :
    r'.get? x = if name = x then some spec else r.get? x := by
  unfold register at h
  split at h
  next hn =>
    cases h
    exact Table.get?_insert ..
  next known hk =>
    split at h
    next he =>
      cases h
      split
      next hx => rw [← hx, hk, he]
      next => rfl
    next => cases h

/-- A registration is refused exactly if the name has another specification. -/
theorem register_eq_error_iff {r : Registry} {name : String} {spec : FunctionSpec} {c : Conflict} :
    r.register name spec = .error c ↔
      c = ⟨name⟩ ∧ ∃ known, r.get? name = some known ∧ known ≠ spec := by
  unfold register
  split <;> grind

end Registry

end FormulaEngine

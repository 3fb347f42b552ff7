/-!
# Dependencies

An edge from something that is computed to something that it reads. While formulas are compiled or
evaluated such edges come to light.
-/
namespace FormulaEngine

inductive EndpointKind where
  /-- A name that no scope knows. -/
  | undefined
  /-- A source that no name stands for, such as randomness. -/
  | special
  | attribute
  | global
deriving DecidableEq

namespace EndpointKind

def all : List EndpointKind := [.undefined, .special, .attribute, .global]

def label : EndpointKind → String
  | .undefined => "undefined"
  | .special => "special"
  | .attribute => "attribute"
  | .global => "global"

def ofLabel? (s : String) : Option EndpointKind :=
  all.find? (·.label == s)

@[simp] theorem ofLabel?_label (k : EndpointKind) : ofLabel? k.label = some k := by
  cases k <;> rfl

end EndpointKind

/-- One end of an edge. -/
structure Endpoint where
  kind : EndpointKind
  id : String
  name : String
deriving DecidableEq

namespace Endpoint

/-- Where random numbers come from. -/
def random : Endpoint := ⟨.special, "random", "random"⟩

def undefined (name : String) : Endpoint := ⟨.undefined, name, name⟩

/-- Listed ends are ordered by kind, identifier and name. -/
def le (a b : Endpoint) : Bool :=
  if a.kind.label ≠ b.kind.label then a.kind.label < b.kind.label
  else if a.id ≠ b.id then a.id < b.id
  else a.name ≤ b.name

/-- An absent end comes first. -/
def le? : Option Endpoint → Option Endpoint → Bool
  | none, _ => true
  | some _, none => false
  | some a, some b => a.le b

end Endpoint

/-- An edge. Only what is read has to be known at first; a context fills in the rest. -/
structure Dependency where
  /-- What is read. -/
  independent : Endpoint
  /-- What is computed. -/
  dependent : Option Endpoint
  /-- The positions of the aggregate calls around the reading, among all open calls. -/
  aggregates : Option (List Int)
  /-- The name of the context that found the edge. -/
  context : Option String
deriving DecidableEq

namespace Dependency

/-- An edge of which only what is read is known. -/
def on (e : Endpoint) : Dependency := ⟨e, none, none, none⟩

/-- Two edges repeat each other if they read the same under the same aggregates. -/
def repeats (a b : Dependency) : Bool :=
  a.independent = b.independent && a.aggregates = b.aggregates

theorem repeats_iff {a b : Dependency} :
    a.repeats b = true ↔ a.independent = b.independent ∧ a.aggregates = b.aggregates := by
  simp [repeats]

end Dependency

inductive Delivery where
  /-- An edge was found. -/
  | register (d : Dependency)
  /-- All edges of what is computed are void, for its formula is compiled anew. -/
  | clear (dependent : Endpoint)
deriving DecidableEq

end FormulaEngine

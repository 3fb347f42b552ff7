/-!
# Audiences

The observers that a context tells when the set of names changed that it can resolve. An observer
may be attached several times, and may attach and detach observers while it is told.
-/
namespace FormulaEngine

/-- What an observer does when it is told. -/
inductive Reaction where
  | attach (observer : String)
  | detach (observer : String)
deriving DecidableEq

/-- What observers do when they are told, by the number of those who were told before in the same
announcement: an observer that is attached several times need not do the same each time. -/
structure Conduct where
  reactions : Nat → String → List Reaction

/-- Observers that do the same whenever they are told. -/
instance : Coe (String → List Reaction) Conduct := ⟨fun reactions => ⟨fun _ => reactions⟩⟩

/-- An observer that should be detached is not attached. -/
structure NotAttached where
  observer : String
deriving DecidableEq

/-- The observers of a context in order of attachment, and the number of changes so far. -/
structure Audience where
  observers : List String
  version : Nat
deriving DecidableEq

namespace Audience

def empty : Audience := ⟨[], 0⟩

/-- Attaches an observer after all others. -/
def attach (a : Audience) (observer : String) : Audience :=
  { a with observers := a.observers ++ [observer] }

def detach (a : Audience) (observer : String) : Except NotAttached Audience :=
  if observer ∈ a.observers then .ok { a with observers := a.observers.erase observer }
  else .error ⟨observer⟩

/-- Does what an observer does when it is told, up to the first failure. -/
def react (a : Audience) : List Reaction → Audience × Option NotAttached
  | [] => (a, none)
  | .attach o :: rest => (a.attach o).react rest
  | .detach o :: rest =>
    match a.detach o with
    | .ok a' => a'.react rest
    | .error e => (a, some e)

/-- Tells observers one after the other, up to the first failure; `n` were told before. Answers who
was told and of which version. -/
def tell (conduct : Conduct) (a : Audience) (n : Nat) :
    List String → List (String × Nat) × Audience × Option NotAttached
  | [] => ([], a, none)
  | o :: rest =>
    match a.react (conduct.reactions n o) with
    | (a', some e) => ([(o, a.version)], a', some e)
    | (a', none) =>
      let (told, a'', e) := a'.tell conduct (n + 1) rest
      ((o, a.version) :: told, a'', e)

/-- Announces a change to those who are attached when it happens, whatever they attach or detach
meanwhile. -/
def announce (a : Audience) (conduct : Conduct) :
    List (String × Nat) × Audience × Option NotAttached :=
  { a with version := a.version + 1 }.tell conduct 0 a.observers

theorem version_detach {a a' : Audience} {o : String} (h : a.detach o = .ok a') :
    a'.version = a.version := by
  unfold detach at h
  split at h <;> cases h
  rfl

theorem version_react (a : Audience) (rs : List Reaction) : (a.react rs).1.version = a.version := by
  induction rs generalizing a with
  | nil => rfl
  | cons r rest ih =>
    cases r with
    | attach o => exact ih _
    | detach o =>
      unfold react
      split
      next a' h => rw [ih, version_detach h]
      next => rfl

end Audience

end FormulaEngine

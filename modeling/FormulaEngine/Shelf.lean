import FormulaEngine.Table
/-!
# Shelves

Things that keep their places, and names for the places. A name given anew stands for another place,
and the thing that it stood for before stays where it is.
-/
namespace FormulaEngine

/-- Things by name. A name stands for a place, and the thing at a place stays there. -/
structure Shelf (α : Type) where
  items : List α
  places : Table String Nat

namespace Shelf

variable {α : Type}

def empty : Shelf α := ⟨[], .empty⟩

/-- The place that is taken next. -/
def free (s : Shelf α) : Nat :=
  s.items.length

def push (s : Shelf α) (a : α) : Shelf α :=
  { s with items := s.items ++ [a] }

/-- Puts a thing at the next place, under a name. -/
def add (s : Shelf α) (name : String) (a : α) : Shelf α :=
  ⟨s.items ++ [a], s.places.insert name s.free⟩

def at? (s : Shelf α) (place : Nat) : Option α :=
  s.items[place]?

def put (s : Shelf α) (place : Nat) (a : α) : Shelf α :=
  { s with items := s.items.set place a }

def place? (s : Shelf α) (name : String) : Option Nat :=
  s.places.get? name

def find? (s : Shelf α) (name : String) : Option α :=
  (s.place? name).bind s.at?

end Shelf

end FormulaEngine

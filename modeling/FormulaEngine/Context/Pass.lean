import FormulaEngine.Code
/-!
# Passes

What a context keeps track of while it walks through a formula: the calls that are open around the
current place, the dependencies found, whether an aggregate call was opened, and the random numbers
drawn.
-/
namespace FormulaEngine

/-- A call whose arguments are being walked through. -/
structure OpenCall where
  name : String
  isAggregate : Bool
deriving DecidableEq

/-- The report of an attempt to end a call that is not the innermost open one. -/
structure Imbalance where
  ended : Option String
  innermost : Option String
deriving DecidableEq

/-- The text of a report; an unnamed call is like none. -/
def Imbalance.message (i : Imbalance) : String :=
  let written : Option String → String
    | none => "None"
    | some s => Text.quoted s
  "StackImbalance: attempt to end function context " ++ written i.ended ++ " while " ++
    written (i.innermost.filter (· ≠ "")) ++ " is on top"

/-- The state of a walk. -/
structure Pass where
  /-- The open calls, the innermost one first. -/
  openCalls : List OpenCall
  /-- The dependencies found, in order. -/
  found : List Dependency
  hasAggregates : Bool
  draws : Draws
  /-- What the dependency manager has still to be told. -/
  outbox : List Delivery
  /-- The reports that have still to be made. -/
  imbalances : List Imbalance

namespace Pass

def start (draws : Draws) : Pass := ⟨[], [], false, draws, [], []⟩

def depth (p : Pass) : Nat :=
  p.openCalls.length

/-- The positions of the aggregate calls among open calls, the outermost call being at 0. -/
def aggregatePositions (calls : List OpenCall) : List Nat :=
  (calls.reverse.zipIdx.filter (·.1.isAggregate)).map Prod.snd

def aggregates (p : Pass) : List Nat :=
  aggregatePositions p.openCalls

def beginCall (p : Pass) (c : OpenCall) : Pass :=
  { p with openCalls := c :: p.openCalls, hasAggregates := p.hasAggregates || c.isAggregate }

/-- Whether a name is that of the innermost open call. -/
def isInnermost (p : Pass) (name : Option String) : Bool :=
  match p.openCalls with
  | [] => false
  | c :: _ => name = some c.name

/-- Closes the innermost call if it has the given name, and otherwise reports that it has not. -/
def endCall (p : Pass) (name : Option String) : Pass :=
  if p.isInnermost name then { p with openCalls := p.openCalls.drop 1 }
  else
    let report := ⟨name, p.openCalls.head?.map OpenCall.name⟩
    { p with imbalances := p.imbalances ++ [report] }

/-- A dependency with everything filled in that was left open: the owner of the context, the open
aggregate calls and the context. -/
def complete (p : Pass) (s : Setting) (d : Dependency) : Dependency where
  independent := d.independent
  dependent := d.dependent.or s.owner
  aggregates := d.aggregates.or (some (p.aggregates.map Int.ofNat))
  context := d.context.or (some s.label)

/-- Notes a dependency and lets the manager know. -/
def register (p : Pass) (d : Dependency) : Pass :=
  { p with found := p.found ++ [d], outbox := p.outbox ++ [.register d] }

/-- The pass in which a formula is compiled, after another one. If the context has an owner, its
earlier dependencies are void. -/
def restart (p : Pass) (s : Setting) : Pass :=
  { p with
    openCalls := []
    found := []
    hasAggregates := false
    outbox := p.outbox ++ (s.owner.map Delivery.clear).toList }

theorem endCall_of_not_isInnermost {p : Pass} {name : Option String}
    (h : p.isInnermost name = false) :
    p.endCall name =
      { p with imbalances := p.imbalances ++ [⟨name, p.openCalls.head?.map OpenCall.name⟩] } := by
  simp [endCall, h]

end Pass

/-- A walk through a formula, which may stop at a fault. What a pass holds is kept then. -/
abbrev Walk := EStateM Fault Pass

namespace Walk

def lift {α : Type} : Except Fault α → Walk α
  | .ok a => fun p => .ok a p
  | .error e => fun p => .error e p

/-- A run of code as a walk that only draws random numbers. -/
def ofRun {α : Type} (r : Run α) : Walk α := fun p =>
  match r p.draws with
  | .ok a d => .ok a { p with draws := d }
  | .error e d => .error e { p with draws := d }

/-- Completes a dependency and notes it. -/
def register (s : Setting) (d : Dependency) : Walk Dependency := fun p =>
  .ok (p.complete s d) (p.register (p.complete s d))

/-- A walk inside a call, which is closed at the end and also at a fault. -/
def inCall {α : Type} (s : Setting) (name : String) (w : Walk α) : Walk α := fun p =>
  match w (p.beginCall ⟨name, s.isAggregate name⟩) with
  | .ok a p' => .ok a (p'.endCall (some name))
  | .error e p' => .error e (p'.endCall (some name))

end Walk

end FormulaEngine

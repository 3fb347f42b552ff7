import FormulaEngine.Context.Action
import FormulaEngine.Dependency.Recorder
import FormulaEngine.Function.Registry
import FormulaEngine.Shelf
/-!
# Workspaces

Contexts, dependency managers, function registries and compiled formulas by name, as they work
together: what a context finds out reaches its manager, and a formula runs in the context that
compiled it or in another one. A name can be given anew; what was bound to its earlier holder stays
bound to that.
-/
namespace FormulaEngine

/-- What contexts report their dependencies to. -/
inductive Manager where
  | recorder (r : Recorder)
  /-- Lists what it is told. -/
  | journal (deliveries : List Delivery)

/-- Hands over what a context has to tell. -/
def Manager.receive : Manager → Delivery → Manager
  | .recorder r, d => .recorder (r.receive d)
  | .journal ds, d => .journal (ds ++ [d])

/-- A context, the place of its manager, and the place of its registry. -/
structure Member where
  context : Context
  manager : Option Nat
  registry : Nat

/-- Compiled code, and the place of the context that it is bound to. -/
structure Formula where
  code : Code
  home : Option Nat

def Formula.written (f : Formula) : Except Trap String := do
  return "CompiledFormula(" ++ (← f.code.written) ++ ")"

structure Workspace where
  contexts : Shelf Member
  managers : Shelf Manager
  registries : Shelf Registry
  formulas : Table String Formula
  /-- The reports that have still to be made. -/
  log : List Imbalance

/-- Why something could not be done in a workspace. -/
inductive Trouble where
  | refusal (r : Refusal)
  | conflict (c : Registry.Conflict)
  /-- A name stands for nothing of the kind that is needed. -/
  | missing (name : String)

namespace Workspace

def empty : Workspace := ⟨.empty, .empty, .empty, .empty, []⟩

abbrev Session := EStateM Trouble Workspace

/-- What a name stands for, which must be there. -/
def need {α : Type} (name : String) : Option α → Session α
  | some a => pure a
  | none => throw (.missing name)

/-- Puts a context under a name. Without a registry of its own choice it has the standard one for
itself. -/
def addContext (s : Setting) (draws : Draws) (manager registry : Option String) : Session Unit := do
  let w ← get
  let managerPlace ← manager.mapM fun n => need n (w.managers.place? n)
  let registryPlace ← registry.mapM fun n => need n (w.registries.place? n)
  let context := Context.new s draws
  match registryPlace with
  | some r =>
    modify fun w => { w with contexts := w.contexts.add s.label ⟨context, managerPlace, r⟩ }
  | none =>
    let r := w.registries.free
    modify fun w =>
      { w with
        registries := w.registries.push .standard
        contexts := w.contexts.add s.label ⟨context, managerPlace, r⟩ }

def addManager (name : String) (m : Manager) : Session Unit :=
  modify fun w => { w with managers := w.managers.add name m }

def addRegistry (name : String) (r : Registry) : Session Unit :=
  modify fun w => { w with registries := w.registries.add name r }

/-- Hands over what the context at a place has to tell, to its manager and to the log. -/
def settle (w : Workspace) (place : Nat) (m : Member) : Workspace :=
  let (deliveries, reports, context) := m.context.flush
  let managers := match m.manager with
    | none => w.managers
    | some i =>
      match w.managers.at? i with
      | none => w.managers
      | some manager => w.managers.put i (deliveries.foldl Manager.receive manager)
  { w with
    contexts := w.contexts.put place { m with context := context }
    managers := managers
    log := w.log ++ reports }

/-- Does something with the context at a place. -/
def performAt (place : Nat) (a : Action) : Session Answer := fun w =>
  match w.contexts.at? place with
  | none => .error (.missing "") w
  | some m =>
    match a.perform m.context with
    | (.ok r, c) => .ok r (w.settle place { m with context := c })
    | (.error e, c) => .error (.refusal e) (w.settle place { m with context := c })

/-- Does something with the context of a name. -/
def perform (name : String) (a : Action) : Session Answer := do
  performAt (← need name ((← get).contexts.place? name)) a

def context (name : String) : Session Context := do
  return (← need name ((← get).contexts.find? name)).context

/-- Compiles an expression in a context and keeps the formula; where that fails an earlier formula
of the name stays. -/
def compileAs (name formula : String) (e : Expression) : Session Answer := do
  let place ← need name ((← get).contexts.place? name)
  let r ← performAt place (.compile e)
  match r with
  | .code c =>
    modify fun w => { w with formulas := w.formulas.insert formula ⟨c, some place⟩ }
    return r
  | r => return r

/-- Keeps code as a formula, bound to a context if one is given. -/
def wrap (name : Option String) (formula : String) (c : Code) : Session Unit := do
  let w ← get
  let home ← name.mapM fun n => need n (w.contexts.place? n)
  modify fun w => { w with formulas := w.formulas.insert formula ⟨c, home⟩ }

/-- Runs a formula in a context that is named, or else in the one that it is bound to. The value is
handed out, or an error value is raised. -/
def runFormula (f : Formula) (name : Option String) (raising : Bool) (env : Scope) :
    Session Answer := do
  let w ← get
  let chosen ← name.mapM fun n => need n (w.contexts.place? n)
  match chosen.or f.home with
  | none => throw (.refusal (.fault .noContext))
  | some place => performAt place (if raising then .demand f.code env else .run f.code env)

def manager (name : String) : Session Manager := do
  need name ((← get).managers.find? name)

def recorder (name : String) : Session Recorder := do
  match ← manager name with
  | .recorder r => return r
  | .journal _ => throw (.missing name)

/-- Tells the recorder of a name something. Answers what it holds then. -/
def tellRecorder (name : String) (change : Recorder → Recorder) : Session Recorder := do
  let r := change (← recorder name)
  let place ← need name ((← get).managers.place? name)
  modify fun w => { w with managers := w.managers.put place (.recorder r) }
  return r

/-- The place of a registry that is named, or that a context has. -/
def registryPlace (ofContext : Bool) (name : String) : Session Nat := do
  let w ← get
  if ofContext then return (← need name (w.contexts.find? name)).registry
  else need name (w.registries.place? name)

/-- A registry that is named, or that a context has. -/
def registry (ofContext : Bool) (name : String) : Session Registry := do
  let place ← registryPlace ofContext name
  need name ((← get).registries.at? place)

/-- Registers specifications one after the other, up to the first conflict. -/
def registerAll (ofContext : Bool) (name : String) (specs : List (String × FunctionSpec)) :
    Session Unit := do
  let place ← registryPlace ofContext name
  let (r, conflict) := (← registry ofContext name).registerAll specs
  modify fun w => { w with registries := w.registries.put place r }
  match conflict with
  | none => return ()
  | some c => throw (.conflict c)

/-- Takes out the reports that have still to be made. -/
def takeLog : Session (List Imbalance) :=
  modifyGet fun w => (w.log, { w with log := [] })

end Workspace

end FormulaEngine

import FormulaEngine.Proofs.Compilation
/-!
# The events of a compilation

A compilation enters calls and checks nodes in one order, which the expression alone decides. It
goes through these events up to the first one at fault and stops there. What the events before it
have found, and which calls they have opened, stays noted; with no event at fault the code of the
expression is the answer.
-/
namespace FormulaEngine

/-- Something that happens on a walk through an expression. -/
inductive Event where
  /-- The arguments of a call are entered. -/
  | enter (name : String)
  /-- A node inside the calls of a path is checked. -/
  | check (path : List String) (x : Expression)

namespace Expression

mutual

/-- The events of a walk through a whole expression that stands inside the calls of a path. An
operator is checked before its operands. A call is entered first and checked after its arguments. -/
def events (path : List String) : Expression → List Event
  | .literal v => [.check path (.literal v)]
  | .identifier name => [.check path (.identifier name)]
  | .call name args =>
    .enter name :: (eventsAll (path ++ [name]) args ++ [.check path (.call name args)])
  | .unary op x => .check path (.unary op x) :: events path x
  | .binary op l r => .check path (.binary op l r) :: (events path l ++ events path r)
  | .foreign v => [.check path (.foreign v)]

def eventsAll (path : List String) : List Expression → List Event
  | [] => []
  | e :: es => events path e ++ eventsAll path es

end

end Expression

namespace Setting

variable (s : Setting)

/-- What is wrong at an event, if anything is. -/
def eventFault? : Event → Option Fault
  | .enter _ => none
  | .check _ x => s.nodeFault? x

/-- The dependencies that an event finds, unless it is at fault. -/
def eventDependencies : Event → List Dependency
  | .check path (.identifier name) =>
    if s.knows name then [] else [s.dependencyOn path (.undefined name)]
  | .check path (.call name _) => if s.callsRandom name then [s.dependencyOn path .random] else []
  | _ => []

def eventCall? : Event → Option OpenCall
  | .enter name => some ⟨name, s.isAggregate name⟩
  | .check _ _ => none

def firstFault? (events : List Event) : Option Fault :=
  events.findSome? s.eventFault?

def reached (events : List Event) : List Event :=
  events.takeWhile fun x => (s.eventFault? x).isNone

/-- What a walk through some events comes to. -/
def outcome {α : Type} (events : List Event) (a : α) : Except Fault α :=
  match s.firstFault? events with
  | none => .ok a
  | some f => .error f

section

variable {s} {events : List Event}

theorem exists_of_mem_eventDependencies {d : Dependency}
    (h : d ∈ events.flatMap s.eventDependencies) : ∃ path x, d = s.dependencyOn path x := by
  obtain ⟨event, -, hd⟩ := List.mem_flatMap.mp h
  unfold eventDependencies at hd
  split at hd
  next path name =>
    split at hd
    next => simp at hd
    next => exact ⟨path, _, by simpa using hd⟩
  next path name args =>
    split at hd
    next => exact ⟨path, _, by simpa using hd⟩
    next => simp at hd
  next => simp at hd

theorem firstFault?_eq_none_iff :
    s.firstFault? events = none ↔ ∀ x ∈ events, s.eventFault? x = none :=
  List.findSome?_eq_none_iff

private theorem reached_append_of_firstFault? {f : Fault} (h : s.firstFault? events = some f)
    (later : List Event) : s.reached (events ++ later) = s.reached events := by
  induction events with
  | nil => cases h
  | cons x events ih =>
    rw [firstFault?, List.findSome?_cons] at h
    cases hx : s.eventFault? x with
    | some g => simp [reached, hx]
    | none =>
      rw [hx] at h
      simpa [reached, hx] using ih h

theorem reached_append_of_firstFault?_eq_none (h : s.firstFault? events = none)
    (later : List Event) : s.reached (events ++ later) = events ++ s.reached later := by
  rw [firstFault?_eq_none_iff] at h
  exact List.takeWhile_append_of_pos fun x hx => by simp [h x hx]

private theorem reached_of_firstFault?_eq_none (h : s.firstFault? events = none) :
    s.reached events = events := by
  simpa [reached] using reached_append_of_firstFault?_eq_none h []

private theorem firstFault?_append (events later : List Event) :
    s.firstFault? (events ++ later) = (s.firstFault? events).or (s.firstFault? later) :=
  List.findSome?_append

end

end Setting

/-- The pass after some events, none of them at fault. -/
def Pass.follow (p : Pass) (s : Setting) (events : List Event) : Pass :=
  p.note (events.flatMap s.eventDependencies)
    ((events.filterMap s.eventCall?).any OpenCall.isAggregate)

namespace Pass

variable (p : Pass) (s : Setting)

@[simp] theorem follow_nil : p.follow s [] = p :=
  p.note_nil

private theorem follow_follow (events later : List Event) :
    (p.follow s events).follow s later = p.follow s (events ++ later) := by
  rw [follow, follow, note_note, follow, List.flatMap_append, List.filterMap_append,
    List.any_append]

end Pass

namespace Walk

variable {α β : Type} {s : Setting} {path : List String} {events later : List Event} {a : α} {b : β}
  {w : Walk α} {f : α → Walk β}

/-- Whether a walk inside the calls of a path goes through some events up to the first one at fault,
and otherwise comes to an answer. -/
def Follows (s : Setting) (path : List String) (events : List Event) (a : α) (w : Walk α) : Prop :=
  ∀ p : Pass, p.openCalls = s.openCalls path →
    w p = lift (s.outcome events a) (p.follow s (s.reached events))

private theorem follows_pure (a : α) : Follows s path [] a (pure a) := by
  intro p _
  rw [show s.reached [] = [] from rfl, p.follow_nil]
  rfl

private theorem Follows.bind (hw : Follows s path events a w) (hf : Follows s path later b (f a)) :
    Follows s path (events ++ later) b (w >>= f) := by
  intro p hp
  have hwp := hw p hp
  rw [Setting.outcome, Setting.firstFault?_append]
  rw [Setting.outcome] at hwp
  cases hfault : s.firstFault? events with
  | some g =>
    rw [hfault] at hwp
    rw [bind_of_error hwp, Setting.reached_append_of_firstFault? hfault]
    rfl
  | none =>
    rw [hfault, Setting.reached_of_firstFault?_eq_none hfault] at hwp
    rw [bind_of_ok hwp, hf (p.follow s events) hp, Pass.follow_follow,
      Setting.reached_append_of_firstFault?_eq_none hfault]
    rfl

private theorem Follows.bind_pure (hw : Follows s path events a w) (g : α → β) :
    Follows s path events (g a) (w >>= fun x => pure (g x)) := by
  have h := hw.bind (f := fun x => pure (g x)) (follows_pure (g a))
  rwa [List.append_nil] at h

private theorem follows_throw {x : Event} {e : Fault} (hx : s.eventFault? x = some e) :
    Follows s path (x :: events) a (throw e) := by
  intro p _
  have hreached : s.reached (x :: events) = [] := by simp [Setting.reached, hx]
  have hfault : s.firstFault? (x :: events) = some e := by
    rw [Setting.firstFault?, List.findSome?_cons, hx]
  rw [Setting.outcome, hfault, hreached, p.follow_nil]
  rfl

private theorem Follows.cons {x : Event} (hx : s.eventFault? x = none)
    (hds : s.eventDependencies x = []) (hcall : s.eventCall? x = none)
    (hw : Follows s path events a w) : Follows s path (x :: events) a w := by
  have hfirst : Follows s path [x] () (pure ()) := by
    intro p _
    have hreached : s.reached [x] = [x] := by simp [Setting.reached, hx]
    have hfault : s.firstFault? [x] = none := by simp [Setting.firstFault?, hx]
    rw [Setting.outcome, hfault, hreached, Pass.follow]
    simp [hds, hcall, lift, pure, EStateM.pure]
  simpa using hfirst.bind (f := fun _ => w) hw

private theorem Follows.inCall {name : String} (hw : Follows s (path ++ [name]) events a w) :
    Follows s path (.enter name :: events) a (inCall s name w) := by
  intro p hp
  have hopened :
      (p.beginCall ⟨name, s.isAggregate name⟩).openCalls = s.openCalls (path ++ [name]) := by
    rw [s.openCalls_append_singleton, ← hp]
    rfl
  have hreached : s.reached (.enter name :: events) = .enter name :: s.reached events := rfl
  have houtcome : s.outcome (.enter name :: events) a = s.outcome events a := rfl
  rw [Walk.inCall, hw _ hopened, hreached, houtcome]
  have hend := p.endCall_note_beginCall ⟨name, s.isAggregate name⟩
    ((s.reached events).flatMap s.eventDependencies)
    (((s.reached events).filterMap s.eventCall?).any OpenCall.isAggregate)
  cases s.outcome events a with
  | ok a => exact congrArg (EStateM.Result.ok a) hend
  | error e => exact congrArg (EStateM.Result.error e) hend

private theorem follows_compileVariable (name : String) :
    Follows s path [.check path (.identifier name)] (s.variableCode name)
      (compileVariable s name) := by
  intro p hp
  rw [compileVariable_eq hp]
  simp [Setting.outcome, Setting.firstFault?, Setting.reached, Setting.eventFault?,
    Setting.nodeFault?, Pass.follow, Setting.eventDependencies, Setting.eventCall?, lift]

private theorem follows_compileFunction (name : String) (args : List Expression) :
    Follows s path [.check path (.call name args)]
      (s.callCode name (Expression.codeAll s args))
      (compileFunction s name (Expression.codeAll s args) none) := by
  intro p hp
  rw [compileFunction_eq, Expression.length_codeAll, Pass.complete_on hp]
  cases h : s.callFault? name args.length <;>
    simp [Setting.outcome, Setting.firstFault?, Setting.reached, Setting.eventFault?,
      Setting.nodeFault?, Pass.follow, Setting.eventDependencies, Setting.eventCall?, lift, h]

private theorem follows_compileAll {es : List Expression}
    (ih : ∀ e ∈ es, Follows s path (e.events path) (e.code s) (compile s e)) :
    Follows s path (Expression.eventsAll path es) (Expression.codeAll s es) (compileAll s es) := by
  induction es with
  | nil =>
    rw [compileAll]
    exact follows_pure []
  | cons e es ihs =>
    have htail := ihs fun x hx => ih x (by simp [hx])
    rw [compileAll]
    exact (ih e (by simp)).bind (htail.bind_pure _)

/-- A compilation goes through the events of the expression. -/
private theorem follows_compile (e : Expression) (path : List String) :
    Follows s path (e.events path) (e.code s) (compile s e) := by
  induction e generalizing path with
  | literal v =>
    rw [compile]
    exact (follows_pure _).cons rfl rfl rfl
  | identifier name =>
    rw [compile]
    exact follows_compileVariable name
  | call name args ih =>
    rw [compile]
    exact (follows_compileAll fun a ha => ih a ha _).inCall.bind (follows_compileFunction name args)
  | unary op x ih =>
    rw [compile, Expression.events]
    split
    next ho => exact follows_throw (by simp [Setting.eventFault?, Setting.nodeFault?, ho])
    next o ho =>
      have hfine : s.eventFault? (.check path (.unary op x)) = none := by
        simp [Setting.eventFault?, Setting.nodeFault?, ho]
      exact ((ih path).bind_pure _).cons hfine rfl rfl
  | binary op l r ihl ihr =>
    rw [compile, Expression.events]
    split
    next ho => exact follows_throw (by simp [Setting.eventFault?, Setting.nodeFault?, ho])
    next o ho =>
      have hfine : s.eventFault? (.check path (.binary op l r)) = none := by
        simp [Setting.eventFault?, Setting.nodeFault?, ho]
      exact ((ihl path).bind ((ihr path).bind_pure _)).cons hfine rfl rfl
  | foreign v =>
    rw [compile]
    exact follows_throw rfl

end Walk

namespace Context

variable {α : Type}

theorem walk_of_lift {c : Context} {w : Walk α} {o : Except Fault α} {q : Pass}
    (h : w c.pass = Walk.lift o q) : c.walk w = (o, { c with pass := q }) := by
  rw [walk, h]
  cases o <;> rfl

/-- A compilation clears what was found before it, and then the events of the expression decide what
it comes to and what it leaves. -/
theorem compile_eq_outcome (c : Context) (e : Expression) :
    c.compile e = (c.setting.outcome (e.events []) (e.code c.setting),
      { c with
        pass := (c.pass.restart c.setting).follow c.setting
          (c.setting.reached (e.events [])) }) :=
  walk_of_lift (c := c.willCompile) (Walk.follows_compile e [] _ rfl)

end Context

end FormulaEngine

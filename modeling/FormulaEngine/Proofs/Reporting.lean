import FormulaEngine.Proofs.Events
import FormulaEngine.Proofs.Footprint
import FormulaEngine.Workspace
/-!
# What contexts report

Whatever is done with a context, its manager hears of it in one form: if a compilation begins, that
the earlier edges of the owner are void, and then the dependencies that were noted, in their order.
They belong to the compilation, or to the evaluation that found them. In each of them only what was
left open has been filled in.
-/
namespace FormulaEngine

/-- Whether a dependency is a given one in which what was left open is filled in: the owner of the
tables, some positions of aggregate calls, and the context. -/
structure Dependency.Completes (s : Setting) (d given : Dependency) : Prop where
  independent : d.independent = given.independent
  dependent : d.dependent = given.dependent.or s.owner
  aggregates : ∃ calls, d.aggregates = given.aggregates.or (some calls)
  context : d.context = given.context.or (some s.label)

namespace Pass

private theorem completes_complete (p : Pass) (s : Setting) (d : Dependency) :
    (p.complete s d).Completes s d :=
  ⟨rfl, rfl, ⟨_, rfl⟩, rfl⟩

private theorem openCalls_endCall_subset (p : Pass) (name : Option String) :
    (p.endCall name).openCalls ⊆ p.openCalls := by
  unfold endCall
  split
  · exact List.drop_subset 1 p.openCalls
  · exact List.Subset.refl _

private theorem exists_endCall_eq (p : Pass) (name : Option String) :
    ∃ calls imbalances, p.endCall name =
      { p with openCalls := calls, imbalances := imbalances } := by
  unfold endCall
  split
  · exact ⟨_, _, rfl⟩
  · exact ⟨_, _, rfl⟩

end Pass

private theorem Setting.completes_dependencyOn (s : Setting) (path : List String) (x : Endpoint) :
    (s.dependencyOn path x).Completes s (.on x) :=
  ⟨rfl, rfl, ⟨_, rfl⟩, rfl⟩

private theorem Setting.completes_randomUnder (s : Setting) (calls : List OpenCall) :
    (s.randomUnder calls).Completes s (.on .random) :=
  ⟨rfl, rfl, ⟨_, rfl⟩, rfl⟩

namespace Walk

variable {α β : Type} {P : Dependency → Prop} {w : Walk α} {f : α → Walk β}

/-- Whether a walk, however it ends, notes dependencies with a property, draws random numbers and
does nothing else. -/
def Reports (P : Dependency → Prop) (w : Walk α) : Prop :=
  ∀ p : Pass, ∃ o ds draws, w p = lift o { p.note ds false with draws := draws } ∧ ∀ d ∈ ds, P d

private theorem reports_lift (o : Except Fault α) : Reports P (lift o) :=
  fun p => ⟨o, [], p.draws, by simp, by simp⟩

private theorem reports_pure (a : α) : Reports P (pure a) :=
  reports_lift (.ok a)

private theorem reports_throw (e : Fault) : Reports P (throw e : Walk α) :=
  reports_lift (.error e)

private theorem reports_ofRun (x : Run α) : Reports P (ofRun x) := by
  intro p
  rw [ofRun]
  cases x p.draws with
  | ok a draws => exact ⟨.ok a, [], draws, by simp [lift], by simp⟩
  | error e draws => exact ⟨.error e, [], draws, by simp [lift], by simp⟩

private theorem Reports.bind (hw : Reports P w) (hf : ∀ a, Reports P (f a)) :
    Reports P (w >>= f) := by
  intro p
  obtain ⟨o, ds, draws, hwp, hds⟩ := hw p
  cases o with
  | error e => exact ⟨.error e, ds, draws, bind_of_error hwp, hds⟩
  | ok a =>
    obtain ⟨o, es, draws', hfq, hes⟩ := hf a { p.note ds false with draws := draws }
    refine ⟨o, ds ++ es, draws', ?_, List.forall_mem_append.mpr ⟨hds, hes⟩⟩
    rw [bind_of_ok hwp, hfq]
    simp [Pass.note]

variable {s : Setting} {env : Scope}

private theorem reports_register {d : Dependency} (hd : ∀ p : Pass, P (p.complete s d)) :
    Reports P (register s d) := by
  intro p
  refine ⟨.ok (p.complete s d), [p.complete s d], p.draws, ?_, ?_⟩
  · rw [register_eq]
    rfl
  · simpa using hd p

private theorem reports_compileVariable {name : String}
    (h : ∀ p : Pass, P (p.complete s (.on (.undefined name)))) :
    Reports P (compileVariable s name) := by
  unfold compileVariable
  split
  · exact reports_pure _
  · exact (reports_register h).bind fun d => reports_pure _

private theorem reports_evaluateVariable (name : String) :
    Reports P (evaluateVariable s env name) := by
  unfold evaluateVariable
  split
  · exact reports_pure _
  · exact reports_throw _

section Call

variable {aggregates : Option (List Int)}
  (h : ∀ p : Pass, P (p.complete s { Dependency.on .random with aggregates := aggregates }))
include h

private theorem reports_checkCall (name : String) (n : Nat) (lib : Library) :
    Reports P (checkCall s name n lib aggregates) := by
  unfold checkCall
  split
  · exact reports_pure ()
  · split
    · exact reports_throw _
    · split
      · exact (reports_register h).bind fun d => reports_pure ()
      · exact reports_pure ()

private theorem reports_compileFunction (name : String) (args : List Code) :
    Reports P (compileFunction s name args aggregates) := by
  unfold compileFunction
  split
  · exact reports_pure _
  · exact (reports_checkCall h _ _ _).bind fun _ => reports_pure _

private theorem reports_evaluateFunction (name : String) (args : List Value) :
    Reports P (evaluateFunction s name args aggregates) := by
  unfold evaluateFunction
  split
  · exact reports_throw _
  · exact (reports_checkCall h _ _ _).bind fun _ => reports_ofRun _

end Call

end Walk

namespace Context

/-- The tables decide how a compilation ends and what it notes. Nothing else is left of it than that
the earlier edges of the owner are void. -/
theorem exists_compile_eq (s : Setting) (e : Expression) :
    ∃ o ds b, (∀ d ∈ ds, d.dependent = s.owner) ∧ ∀ c : Context, c.setting = s →
      c.compile e = (o, { c with pass := (c.pass.restart s).note ds b }) := by
  refine ⟨s.outcome (e.events []) (e.code s),
    (s.reached (e.events [])).flatMap s.eventDependencies,
    ((s.reached (e.events [])).filterMap s.eventCall?).any OpenCall.isAggregate, ?_, ?_⟩
  · intro d hd
    obtain ⟨path, x, rfl⟩ := Setting.exists_of_mem_eventDependencies hd
    rfl
  · rintro c rfl
    exact c.compile_eq_outcome e

end Context

namespace Action

def beginsCompilation : Action → Bool
  | .willCompile => true
  | .compile _ => true
  | _ => false

/-- Whether an action is an immediate evaluation, which keeps the dependencies that it finds. -/
def isEvaluation : Action → Bool
  | .evaluate _ _ => true
  | _ => false

/-- The dependent that an edge names which is registered explicitly. -/
def namedDependent? : Action → Option Endpoint
  | .register d => d.dependent
  | _ => none

/-- What the manager hears before any dependency of the action. -/
def voided (s : Setting) (a : Action) : List Delivery :=
  if a.beginsCompilation then (s.owner.map .clear).toList else []

/-- The calls that an action opens for good or in its own compilation. -/
def opened (s : Setting) : Action → List OpenCall
  | .beginCall call => [call]
  | .compile e => (s.reached (e.events [])).filterMap s.eventCall?
  | _ => []

/-- The dependencies that an action may give to be completed and registered. -/
inductive Gives : Action → Dependency → Prop
  | register (d : Dependency) : Gives (.register d) d
  | compile (e : Expression) (x : Endpoint) : Gives (.compile e) (.on x)
  | evaluate (e : Expression) (env : Scope) : Gives (.evaluate e env) (.on .random)
  | compileVariable (name : String) : Gives (.compileVariable name) (.on (.undefined name))
  | compileFunction (name : String) (args : List Code) (aggregates : Option (List Int)) :
      Gives (.compileFunction name args aggregates)
        { Dependency.on .random with aggregates := aggregates }
  | evaluateFunction (name : String) (args : List Value) (aggregates : Option (List Int)) :
      Gives (.evaluateFunction name args aggregates)
        { Dependency.on .random with aggregates := aggregates }

theorem Gives.dependent {a : Action} {d : Dependency} (h : a.Gives d) :
    d.dependent = a.namedDependent? := by
  cases h <;> rfl

/-- Whether a dependency is what a context with some tables can register in an action. -/
def Registers (s : Setting) (a : Action) (d : Dependency) : Prop :=
  ∃ given, a.Gives given ∧ d.Completes s given

/-- Everything that an action does to what its context has found and to the calls that are open,
when it registers some dependencies. -/
structure Effect (a : Action) (c c' : Context) (ds : List Dependency) : Prop where
  registers : ∀ d ∈ ds, a.Registers c.setting d
  outbox : c'.pass.outbox = c.pass.outbox ++ (a.voided c.setting ++ ds.map .register)
  found : c'.pass.found =
    (if a.beginsCompilation then [] else c.pass.found) ++ if a.isEvaluation then [] else ds
  evaluated : c'.evaluated = if a.isEvaluation then ds else c.evaluated
  openCalls : c'.pass.openCalls ⊆
    a.opened c.setting ++ if a.beginsCompilation then [] else c.pass.openCalls
  hasAggregates : c'.pass.hasAggregates =
    ((if a.beginsCompilation then false else c.pass.hasAggregates) ||
      (a.opened c.setting).any OpenCall.isAggregate)
  owner : c'.setting.owner = c.setting.owner
  label : c'.setting.label = c.setting.label

section

variable {a : Action} {c c' : Context}

private theorem exists_effect_walk {α : Type} {w : Walk α}
    (h : Walk.Reports (a.Registers c.setting) w) (hbegins : a.beginsCompilation = false)
    (hevaluation : a.isEvaluation = false) (hopened : a.opened c.setting = []) :
    ∃ ds, a.Effect c (c.walk w).2 ds := by
  obtain ⟨o, ds, draws, hwalk, hds⟩ := h c.pass
  rw [Context.walk_of_lift hwalk]
  exact ⟨ds, hds, by simp [voided, hbegins, Pass.note], by simp [hbegins, hevaluation, Pass.note],
    by simp [hevaluation], by simp [hbegins, hopened, Pass.note],
    by simp [hbegins, hopened, Pass.note], rfl, rfl⟩

private theorem exists_effect_quiet (hpass : c'.pass = c.pass)
    (hevaluated : c'.evaluated = c.evaluated)
    (howner : c'.setting.owner = c.setting.owner) (hlabel : c'.setting.label = c.setting.label)
    (hbegins : a.beginsCompilation = false) (hevaluation : a.isEvaluation = false)
    (hopened : a.opened c.setting = []) : ∃ ds, a.Effect c c' ds :=
  ⟨[], by simp, by simp [voided, hbegins, hpass], by simp [hbegins, hpass],
    by simp [hevaluation, hevaluated], by simp [hbegins, hopened, hpass],
    by simp [hbegins, hopened, hpass], howner, hlabel⟩

end

private theorem exists_effect_compile (c : Context) (e : Expression) :
    ∃ ds, (compile e).Effect c (c.compile e).2 ds := by
  rw [c.compile_eq_outcome]
  refine ⟨(c.setting.reached (e.events [])).flatMap c.setting.eventDependencies, ?_, ?_, rfl, rfl,
    ?_, rfl, rfl, rfl⟩
  · intro d hd
    obtain ⟨path, x, rfl⟩ := Setting.exists_of_mem_eventDependencies hd
    exact ⟨_, .compile e x, c.setting.completes_dependencyOn path x⟩
  · exact List.append_assoc ..
  · exact List.nil_subset _

private theorem exists_effect_evaluate (c : Context) (e : Expression) (env : Scope) :
    ∃ ds, (evaluate e env).Effect c (c.evaluate e env).2 ds := by
  obtain ⟨o, ds, k, -, heq, hsub, -⟩ := c.exists_evaluate_eq e env
  rw [heq]
  refine ⟨ds, ?_, rfl, (List.append_nil _).symm, rfl, List.Subset.refl _, (Bool.or_false _).symm,
    rfl, rfl⟩
  intro d hd
  obtain ⟨calls, rfl⟩ := Expression.exists_of_mem_randoms (hsub.subset hd)
  exact ⟨_, .evaluate e env, c.setting.completes_randomUnder calls⟩

/-- What an action does, whether it comes to its end or is stopped. -/
theorem exists_effect (c : Context) (a : Action) : ∃ ds, a.Effect c (a.perform c).2 ds := by
  cases a with
  | beginCall call =>
    exact ⟨[], by simp, (List.append_nil _).symm, (List.append_nil _).symm, rfl,
      List.Subset.refl _, by simp [perform, Pass.beginCall, opened, beginsCompilation], rfl, rfl⟩
  | endCall name =>
    obtain ⟨calls, imbalances, hend⟩ := c.pass.exists_endCall_eq name
    have hcalls := c.pass.openCalls_endCall_subset name
    rw [hend] at hcalls
    change ∃ ds, (endCall name).Effect c { c with pass := c.pass.endCall name } ds
    rw [hend]
    exact ⟨[], by simp, (List.append_nil _).symm, (List.append_nil _).symm, rfl, hcalls,
      (Bool.or_false _).symm, rfl, rfl⟩
  | willCompile =>
    refine ⟨[], by simp, ?_, rfl, rfl, List.Subset.refl _, rfl, rfl, rfl⟩
    rw [List.map_nil, List.append_nil]
    rfl
  | compile e => exact exists_effect_compile c e
  | evaluate e env => exact exists_effect_evaluate c e env
  | compileVariable name =>
    exact exists_effect_walk (Walk.reports_compileVariable fun p =>
      ⟨_, .compileVariable name, p.completes_complete _ _⟩) rfl rfl rfl
  | evaluateVariable name env =>
    exact exists_effect_walk (Walk.reports_evaluateVariable name) rfl rfl rfl
  | compileFunction name args aggregates =>
    exact exists_effect_walk (Walk.reports_compileFunction (fun p =>
      ⟨_, .compileFunction name args aggregates, p.completes_complete _ _⟩) name args) rfl rfl rfl
  | evaluateFunction name args aggregates =>
    exact exists_effect_walk (Walk.reports_evaluateFunction (fun p =>
      ⟨_, .evaluateFunction name args aggregates, p.completes_complete _ _⟩) name args) rfl rfl rfl
  | run code env => exact exists_effect_walk (Walk.reports_ofRun _) rfl rfl rfl
  | demand code env => exact exists_effect_walk (Walk.reports_ofRun _) rfl rfl rfl
  | register d =>
    exact exists_effect_walk (Walk.reports_register fun p =>
      ⟨d, .register d, p.completes_complete _ _⟩) rfl rfl rfl
  | detach o =>
    unfold perform
    dsimp only
    split <;> exact exists_effect_quiet rfl rfl rfl rfl rfl rfl rfl
  | announce reactions =>
    unfold perform
    dsimp only
    split <;> exact exists_effect_quiet rfl rfl rfl rfl rfl rfl rfl
  | _ => exact exists_effect_quiet rfl rfl rfl rfl rfl rfl rfl

end Action

end FormulaEngine

import FormulaEngine.Proofs.Discovery
import FormulaEngine.Proofs.Steps
/-!
# Compiling and evaluating again

What a recorder holds from the owner of a context after a compilation is what this compilation found,
whether it came to its end or was stopped. What it holds from others is as before, and compiling
again changes nothing that it answers. Evaluating what was compiled does not change the recorder at
all, since an evaluation finds only what the compilation has found.
-/
namespace FormulaEngine

namespace Recorder

variable (r : Recorder) {o : Endpoint} {ds : List Dependency}

section Renewed

variable (hds : ∀ x ∈ ds, x.dependent = some o)
include hds

private theorem dependenciesOf_renewed_self :
    (r.receiveAll (.clear o :: ds.map .register)).dependenciesOf (some o) =
      ds.eraseDupsBy Dependency.repeats := by
  have hnone : (r.clear (some o)).dependenciesOf (some o) = [] := by
    rw [dependenciesOf_clear, if_pos rfl]
  exact dependenciesOf_receiveAll_register hnone hds

private theorem dependenciesOf_renewed_of_ne {d : Option Endpoint} (hne : d ≠ some o) :
    (r.receiveAll (.clear o :: ds.map .register)).dependenciesOf d = r.dependenciesOf d := by
  apply dependenciesOf_receiveAll_of_ne
  intro x hx
  rcases List.mem_cons.mp hx with rfl | hx
  · exact hne.symm
  · obtain ⟨y, hy, rfl⟩ := List.mem_map.mp hx
    have hdependent : y.dependent = some o := hds y hy
    exact fun heq => hne (heq.symm.trans hdependent)

private theorem dependenciesOf_renewed_twice (d : Option Endpoint) :
    ((r.receiveAll (.clear o :: ds.map .register)).receiveAll
        (.clear o :: ds.map .register)).dependenciesOf d =
      (r.receiveAll (.clear o :: ds.map .register)).dependenciesOf d := by
  by_cases hd : d = some o
  · rw [hd, dependenciesOf_renewed_self _ hds, dependenciesOf_renewed_self _ hds]
  · exact dependenciesOf_renewed_of_ne _ hds hd

end Renewed

end Recorder

namespace Context

private theorem exists_reports_compile (s : Setting) (e : Expression) :
    ∃ o ds, (∀ d ∈ ds, d.dependent = s.owner) ∧ ∀ c : Context, c.setting = s →
      c.pass.outbox = [] → (c.compile e).1 = o ∧ (c.compile e).2.pass.found = ds ∧
        c.reports (.compile e) = (s.owner.map .clear).toList ++ ds.map .register ∧
        (c.performed (.compile e)).setting = s ∧
        (c.performed (.compile e)).pass.openCalls = [] := by
  obtain ⟨o, ds, b, hds, hcompile⟩ := exists_compile_eq s e
  refine ⟨o, ds, hds, ?_⟩
  rintro c rfl hreported
  have hperform : ((Action.compile e).perform c).2 = (c.compile e).2 := rfl
  rw [reports, performed, hperform, hcompile c rfl]
  refine ⟨rfl, rfl, ?_, rfl, rfl⟩
  change (c.pass.outbox ++ _) ++ _ = _
  rw [hreported, List.nil_append]

private theorem exists_reports_evaluate {c : Context} (hreported : c.pass.outbox = [])
    (hclosed : c.pass.openCalls = []) (e : Expression) (env : Scope) :
    ∃ ds, c.reports (.evaluate e env) = ds.map .register ∧
      ds ⊆ e.dependencies c.setting [] ∧
      (c.performed (.evaluate e env)).setting = c.setting ∧
      (c.performed (.evaluate e env)).pass.openCalls = [] := by
  obtain ⟨o, ds, k, -, heq, hsub, -⟩ := exists_evaluate_eq c e env
  have hfound : Dependency.randoms (e.dependencies c.setting []) = e.randoms c.setting [] :=
    e.randoms_dependencies []
  rw [hclosed, ← hfound] at hsub
  have hperform : ((Action.evaluate e env).perform c).2 = (c.evaluate e env).2 := rfl
  rw [reports, performed, hperform, heq]
  refine ⟨ds, ?_, ?_, rfl, hclosed⟩
  · change c.pass.outbox ++ _ = _
    rw [hreported, List.nil_append]
  · exact (hsub.trans List.filter_sublist).subset

end Context

namespace Workspace

open Recorder (History)

variable {w : Workspace} {place i : Nat} {c : Context} {h : History} {o : Endpoint}

/-- A compilation, whether it succeeds or is stopped, replaces the edges of the owner in a recorder
by the dependencies that it found and registered, and those of no other dependent. What reads
something changes at most in the owner. To compile the same expression again changes no answer. -/
theorem recorder_compile (hw : w.Attached place c i (Recorder.after h))
    (ho : c.setting.owner = some o) (e : Expression) :
    let old := Recorder.after h
    let found := (c.compile e).2.pass.found
    ∃ r, (w.step place (.compile e)).managers.at? i = some (.recorder r) ∧
      r = old.receiveAll (.clear o :: found.map .register) ∧
      r.dependenciesOf (some o) = found.eraseDupsBy Dependency.repeats ∧
      (∀ d, d ≠ some o → r.dependenciesOf d = old.dependenciesOf d) ∧
      (∀ x, (some o ∈ r.dependentsOf x ↔ ∃ y ∈ r.dependenciesOf (some o), y.independent = x) ∧
        ∀ d, d ≠ some o → (d ∈ r.dependentsOf x ↔ d ∈ old.dependentsOf x)) ∧
      ∃ r', ((w.step place (.compile e)).step place (.compile e)).managers.at? i =
          some (.recorder r') ∧
        ((c.performed (.compile e)).compile e).1 = (c.compile e).1 ∧
        (∀ d, r'.dependenciesOf d = r.dependenciesOf d) ∧
        (∀ d, r'.independentsOf d = r.independentsOf d) ∧
        (∀ x, r'.dependentsOf x = r.dependentsOf x) ∧ r'.size = r.size := by
  intro old found
  obtain ⟨outcome, ds, hds, hcompile⟩ := Context.exists_reports_compile c.setting e
  obtain ⟨hfirst, hfound, hreports, hsetting, -⟩ := hcompile c rfl hw.reported
  obtain ⟨hsecond, -, hreports', -, -⟩ :=
    hcompile (c.performed (.compile e)) hsetting (c.outbox_performed _)
  rw [ho] at hds hreports hreports'
  change _ = Delivery.clear o :: ds.map Delivery.register at hreports hreports'
  have hw' := hw.step (.compile e)
  have hrecorder' := (hw'.step (.compile e)).recorder
  have hrecorder := hw'.recorder
  rw [hreports] at hrecorder hrecorder'
  rw [hreports'] at hrecorder'
  have hold : old.Coherent := Recorder.coherent_after h
  have hkeep := fun d (hd : d ≠ some o) => old.dependenciesOf_renewed_of_ne hds hd
  have hcoherent := hold.receiveAll (.clear o :: ds.map .register)
  have htwice := Recorder.dependenciesOf_renewed_twice old hds
  obtain ⟨hindependents, hdependents, hsize⟩ :=
    (hcoherent.receiveAll (.clear o :: ds.map .register)).answers_congr hcoherent htwice
  refine ⟨_, hrecorder, ?_, ?_, hkeep, ?_, _, hrecorder', ?_, htwice, hindependents, hdependents,
    hsize⟩
  · rw [← hfound]
  · change _ = (c.compile e).2.pass.found.eraseDupsBy _
    rw [hfound]
    exact old.dependenciesOf_renewed_self hds
  · intro x
    refine ⟨hcoherent.mem_dependentsOf x _, fun d hd => ?_⟩
    rw [hcoherent.mem_dependentsOf, hold.mem_dependentsOf, hkeep d hd]
  · rw [hsecond, hfirst]

/-- A compilation that is stopped keeps what it found before, and the other reader of randomness. -/
theorem recorder_compile_stopped :
    let o : Endpoint := ⟨.attribute, "a", "area"⟩
    let v : Endpoint := ⟨.attribute, "v", "volume"⟩
    let edge (x y : Endpoint) (calls : List Int) : Dependency := ⟨y, some x, some calls, some "c"⟩
    let h : History := [.register (edge v .random []), .register (edge o (.undefined "old") []),
      .register (edge o .random [0])]
    let c := Context.new { Setting.bare "c" with owner := some o } (.cycle [])
    let w : Workspace := { empty with
      contexts := ⟨[⟨c, some 0, 0⟩], .empty⟩
      managers := ⟨[.recorder (Recorder.after h)], .empty⟩ }
    let e : Expression := .binary "+" (.call "random" [])
      (.binary "&" (.call "random" []) (.foreign .null))
    w.Attached 0 c 0 (Recorder.after h) ∧ c.setting.owner = some o ∧
      (c.compile e).1 = .error (.notExpression .compile "NoneType") ∧
      ∃ r, (w.step 0 (.compile e)).managers.at? 0 = some (.recorder r) ∧
        r.dependenciesOf (some o) = [edge o .random []] ∧
        r.dependenciesOf (some v) = [edge v .random []] ∧
        some o ∈ r.dependentsOf .random ∧ some v ∈ r.dependentsOf .random ∧
        some o ∉ r.dependentsOf (.undefined "old") := by
  intro o v edge h c w e
  have hw : w.Attached 0 c 0 (Recorder.after h) := ⟨⟨0, rfl⟩, rfl, rfl⟩
  obtain ⟨r, hr, -, hown, hothers, hreaders, -⟩ := recorder_compile hw rfl e
  have howns : r.dependenciesOf (some o) = [edge o .random []] := hown
  have hvolume : r.dependenciesOf (some v) = [edge v .random []] := hothers _ (by decide)
  have hold : some v ∈ (Recorder.after h).dependentsOf .random :=
    ((Recorder.coherent_after h).mem_dependentsOf _ _).mpr ⟨edge v .random [], .head _, rfl⟩
  refine ⟨hw, rfl, rfl, r, hr, howns, hvolume, ?_, ?_, ?_⟩
  · rw [(hreaders .random).1, howns]
    exact ⟨_, .head _, rfl⟩
  · exact ((hreaders .random).2 _ (by decide)).mpr hold
  · rw [(hreaders _).1, howns]
    simp [edge, Endpoint.random, Endpoint.undefined]

private theorem Attached.recorder_evaluations_of_known {r : Recorder} {e : Expression}
    (hknown : ∀ x ∈ e.dependencies c.setting [], r.Knows x) (envs : List Scope)
    (hw : w.Attached place c i r) (hclosed : c.pass.openCalls = []) :
    (w.after (envs.map fun env => (place, .evaluate e env))).managers.at? i =
      some (.recorder r) := by
  induction envs generalizing w c with
  | nil => exact hw.recorder
  | cons env envs ih =>
    obtain ⟨ds, hreports, hsub, hsetting, hclosed'⟩ :=
      Context.exists_reports_evaluate hw.reported hclosed e env
    have hstep := hw.step (.evaluate e env)
    rw [hreports, Recorder.receiveAll_of_known fun x hx => hknown x (hsub hx)] at hstep
    exact ih (hsetting.symm ▸ hknown) hstep hclosed'

/-- After a successful compilation a recorder stays as it is, in both tables, however often the
expression is evaluated in whatever environments, and however the evaluations end. -/
theorem recorder_evaluations (hw : w.Attached place c i (Recorder.after h)) {e : Expression}
    {code : Code} {c' : Context} (hcompile : c.compile e = (.ok code, c')) (envs : List Scope) :
    ∃ r, (w.step place (.compile e)).managers.at? i = some (.recorder r) ∧
      ((w.step place (.compile e)).after
        (envs.map fun env => (place, .evaluate e env))).managers.at? i = some (.recorder r) := by
  obtain ⟨outcome, ds, -, hreport⟩ := Context.exists_reports_compile c.setting e
  obtain ⟨-, hfound, hreports, hsetting, hclosed⟩ := hreport c rfl hw.reported
  rw [hcompile] at hfound
  obtain ⟨-, -, rfl⟩ := Context.compile_eq_ok_iff.mp hcompile
  have hds : e.dependencies c.setting [] = ds := hfound
  have hw' := hw.step (.compile e)
  rw [hreports, Recorder.receiveAll_append] at hw'
  refine ⟨_, hw'.recorder, hw'.recorder_evaluations_of_known ?_ envs hclosed⟩
  rw [hsetting, hds]
  exact fun x hx => Recorder.knows_receiveAll hx

/-- Without an owner, and with one evaluation that is stopped and one that comes to a value. -/
theorem recorder_evaluations_unbound :
    let c := Context.new { Setting.bare "c" with declared := ["x"] } (.cycle [])
    let edge (calls : List Int) (context : String) : Dependency :=
      ⟨.random, none, some calls, some context⟩
    let h : History := [.register (edge [0] "d")]
    let w : Workspace := { empty with
      contexts := ⟨[⟨c, some 0, 0⟩], .empty⟩
      managers := ⟨[.recorder (Recorder.after h)], .empty⟩ }
    let e : Expression := .binary "&" (.call "random" []) (.identifier "x")
    let code : Code := .operation "&" [.call .builtin "random" [], .read .environment "x"]
    let envs : List Scope := [.empty, Table.empty.insert "x" (.text "x")]
    w.Attached 0 c 0 (Recorder.after h) ∧ c.compile e = (.ok code, (c.compile e).2) ∧
      ((c.compile e).2.evaluate e .empty).1 = .error (.formula (.variable "x")) ∧
      ∃ r, ((w.step 0 (.compile e)).after
          (envs.map fun env => (0, .evaluate e env))).managers.at? 0 = some (.recorder r) ∧
        r.dependenciesOf none = [edge [0] "d", edge [] "c"] := by
  intro c edge h w e code envs
  have hw : w.Attached 0 c 0 (Recorder.after h) := ⟨⟨0, rfl⟩, rfl, rfl⟩
  have hcompile : c.compile e = (.ok code, (c.compile e).2) := rfl
  obtain ⟨r, hr, hafter⟩ := recorder_evaluations hw hcompile envs
  have hheld : some (Manager.recorder ((Recorder.after h).receiveAll (c.reports (.compile e)))) =
      some (.recorder r) := hr
  refine ⟨hw, hcompile, rfl, r, hafter, ?_⟩
  cases hheld
  rfl

end Workspace

end FormulaEngine

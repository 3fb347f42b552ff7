import FormulaEngine.Proofs.Steps
import Mathlib.Algebra.BigOperators.Fin
/-!
# Sharing a recorder

Contexts that report to one recorder and compute different things do not meet there: each of them
has the edges that it would have in a recorder of its own, whatever the others do meanwhile. And
whatever contexts share a recorder, the edges of a dependent stay in their places until a context
that computes it begins a compilation.
-/
namespace FormulaEngine

namespace Context

variable {c : Context} {a : Action}

private theorem clear_mem_reports (h : c.pass.outbox = []) {o : Endpoint}
    (ho : .clear o ∈ c.reports a) : a.beginsCompilation = true ∧ c.setting.owner = some o := by
  obtain ⟨ds, -, hreports⟩ := exists_reports_eq a h
  rw [hreports, List.mem_append, Action.voided] at ho
  rcases ho with ho | ho
  · split at ho
    next hbegins =>
      refine ⟨hbegins, ?_⟩
      simpa using ho
    next => cases ho
  · simp at ho

private theorem dependent_of_mem_reports (h : c.pass.outbox = []) (ha : a.namedDependent? = none)
    {x : Delivery} (hx : x ∈ c.reports a) : x.dependent = c.setting.owner := by
  cases x with
  | clear o => exact (clear_mem_reports h hx).2.symm
  | register d =>
    obtain ⟨ds, hds, hreports⟩ := exists_reports_eq a h
    have hd : d ∈ ds := by
      rw [hreports, List.mem_append, Action.voided] at hx
      rcases hx with hx | hx
      · split at hx <;> simp at hx
      · simpa using hx
    have hdependent := hds d hd
    rwa [ha, Option.none_or] at hdependent

end Context

namespace Recorder

variable {ι : Type} {r : Recorder} {owner : ι → Option Endpoint} {own : ι → Recorder}

/-- Whether a recorder holds what some others hold together, each of which holds the edges from one
owner only. -/
structure Joins (r : Recorder) (owner : ι → Option Endpoint) (own : ι → Recorder) : Prop where
  coherent : r.Coherent
  each : ∀ p, (own p).Coherent
  same : ∀ p, r.dependenciesOf (owner p) = (own p).dependenciesOf (owner p)
  owned : ∀ d, r.dependenciesOf d ≠ [] → ∃ p, owner p = d
  only : ∀ p d, (own p).dependenciesOf d ≠ [] → d = owner p

private theorem Joins.mem_dependentsOf (h : r.Joins owner own) (x : Endpoint)
    (d : Option Endpoint) : d ∈ r.dependentsOf x ↔ ∃ p, d ∈ (own p).dependentsOf x := by
  simp only [h.coherent.mem_dependentsOf, (h.each _).mem_dependentsOf]
  constructor
  · rintro ⟨y, hy, hx⟩
    obtain ⟨p, rfl⟩ := h.owned d (List.ne_nil_of_mem hy)
    exact ⟨p, y, h.same p ▸ hy, hx⟩
  · rintro ⟨p, y, hy, hx⟩
    obtain rfl := h.only p d (List.ne_nil_of_mem hy)
    exact ⟨y, (h.same p).symm ▸ hy, hx⟩

private theorem Joins.size_eq_sum [Fintype ι] (h : r.Joins owner own)
    (howner : Function.Injective owner) : r.size = ∑ p, (own p).size := by
  have howned (d : Option Endpoint) (hd : r.dependenciesOf d ≠ []) : d ∈ Finset.univ.image owner := by
    obtain ⟨p, rfl⟩ := h.owned d hd
    exact Finset.mem_image_of_mem _ (Finset.mem_univ p)
  have heach (p : ι) : (own p).size = (r.dependenciesOf (owner p)).length := by
    have hone (d : Option Endpoint) (hd : (own p).dependenciesOf d ≠ []) :
        d ∈ ({owner p} : Finset (Option Endpoint)) :=
      Finset.mem_singleton.mpr (h.only p d hd)
    rw [(h.each p).size_eq_sum_of_subset hone, Finset.sum_singleton, h.same p]
  rw [h.coherent.size_eq_sum_of_subset howned, Finset.sum_image howner.injOn]
  exact Finset.sum_congr rfl fun p _ => (heach p).symm

end Recorder

namespace Workspace

/-- A workspace of contexts that all report to one new recorder. -/
def sharing (cs : List Context) : Workspace :=
  { empty with
    contexts := ⟨cs.map fun c => ⟨c, some 0, 0⟩, .empty⟩
    managers := ⟨[.recorder .empty], .empty⟩
    registries := ⟨[.standard], .empty⟩ }

/-- The steps at one place, for a workspace in which there is no other one. -/
def stepsAt (steps : List (Nat × Action)) (place : Nat) : List (Nat × Action) :=
  (steps.filter (·.1 = place)).map fun s => (0, s.2)

section StepsAt

variable (steps : List (Nat × Action)) (place : Nat) (a : Action)

private theorem stepsAt_append_singleton_self :
    stepsAt (steps ++ [(place, a)]) place = stepsAt steps place ++ [(0, a)] := by
  simp [stepsAt]

private theorem stepsAt_append_singleton_of_ne {other : Nat} (hne : place ≠ other) :
    stepsAt (steps ++ [(place, a)]) other = stepsAt steps other := by
  simp [stepsAt, hne]

end StepsAt

private theorem attached_sharing {cs : List Context} (p : Fin cs.length)
    (h : cs[p].pass.outbox = []) : (sharing cs).Attached p cs[p] 0 .empty := by
  refine ⟨⟨0, ?_⟩, rfl, h⟩
  change (cs.map _)[p.val]? = _
  simp

private theorem settled_sharing {cs : List Context} (h : ∀ c ∈ cs, c.pass.outbox = []) :
    (sharing cs).Settled := by
  intro place m hm
  have hmem : m ∈ cs.map _ := List.mem_of_getElem? hm
  obtain ⟨c, hc, rfl⟩ := List.mem_map.mp hmem
  exact h c hc

private theorem at?_step_eq_none_iff {w : Workspace} {place other : Nat} (a : Action) :
    (w.step place a).contexts.at? other = none ↔ w.contexts.at? other = none := by
  cases hm : w.contexts.at? place with
  | none => rw [step_of_none hm]
  | some m =>
    rw [contexts_step hm]
    simp [Shelf.at?, Shelf.put]

/-- Whether a context of one workspace is also the context of another one, where it has a recorder
of its own. Both recorders hold the same edges from the owner, and the second one holds no others. -/
structure Mirrored (w v : Workspace) (place : Nat) (c : Context) (shared own : Recorder) :
    Prop where
  left : w.Attached place c 0 shared
  right : v.Attached 0 c 0 own
  coherent : own.Coherent
  same : shared.dependenciesOf c.setting.owner = own.dependenciesOf c.setting.owner
  only : ∀ d, d ≠ c.setting.owner → own.dependenciesOf d = []

section Mirrored

variable {w v : Workspace} {place : Nat} {c : Context} {shared own : Recorder} {a : Action}

private theorem Mirrored.step (h : w.Mirrored v place c shared own)
    (ha : a.namedDependent? = none) :
    (w.step place a).Mirrored (v.step 0 a) place (c.performed a)
      (shared.receiveAll (c.reports a)) (own.receiveAll (c.reports a)) where
  left := h.left.step a
  right := h.right.step a
  coherent := h.coherent.receiveAll _
  same := by
    rw [Context.owner_performed]
    exact Recorder.dependenciesOf_receiveAll_congr h.same _
  only := by
    intro d hd
    rw [Context.owner_performed] at hd
    rw [Recorder.dependenciesOf_receiveAll_of_ne, h.only d hd]
    intro x hx
    rw [Context.dependent_of_mem_reports h.left.reported ha hx]
    exact hd.symm

private theorem Mirrored.step_of_ne {other : Nat} {d : Context}
    (h : w.Mirrored v place c shared own)
    (hother : w.Attached other d 0 shared) (hne : other ≠ place)
    (howner : d.setting.owner ≠ c.setting.owner) (ha : a.namedDependent? = none) :
    (w.step other a).Mirrored v place c (shared.receiveAll (d.reports a)) own where
  left := h.left.step_of_ne hother hne a
  right := h.right
  coherent := h.coherent
  same := by
    rw [Recorder.dependenciesOf_receiveAll_of_ne, h.same]
    intro x hx
    rwa [Context.dependent_of_mem_reports hother.reported ha hx]
  only := h.only

end Mirrored

/-- What becomes of contexts and their recorder in some steps, compared with the steps of each
context in a workspace of its own. -/
structure Apart (cs : List Context) (steps : List (Nat × Action)) (shared : Recorder) : Prop where
  recorder : ((sharing cs).after steps).managers.at? 0 = some (.recorder shared)
  coherent : shared.Coherent
  owned : ∀ d, shared.dependenciesOf d ≠ [] → ∃ p : Fin cs.length, cs[p].setting.owner = d
  absent : ∀ place, cs.length ≤ place → ((sharing cs).after steps).contexts.at? place = none
  mirrored : ∀ p : Fin cs.length, ∃ c own, c.setting.owner = cs[p].setting.owner ∧
    ((sharing cs).after steps).Mirrored ((sharing [cs[p]]).after (stepsAt steps p)) p c shared own

section Apart

variable {cs : List Context} {steps : List (Nat × Action)} {shared : Recorder}

private theorem apart_nil (h : ∀ c ∈ cs, c.pass.outbox = []) : Apart cs [] .empty where
  recorder := rfl
  coherent := Recorder.coherent_empty
  owned := by simp
  absent := by
    intro place hplace
    change (cs.map _)[place]? = none
    simpa using hplace
  mirrored := by
    intro p
    have hc : cs[p].pass.outbox = [] := h _ (List.getElem_mem _)
    have halone : (sharing [cs[p]]).Attached 0 cs[p] 0 .empty := ⟨⟨0, rfl⟩, rfl, hc⟩
    exact ⟨cs[p], .empty, rfl, attached_sharing p hc, halone, Recorder.coherent_empty, rfl,
      fun _ _ => rfl⟩

private theorem Apart.append_of_le (h : Apart cs steps shared) {place : Nat}
    (hplace : cs.length ≤ place) (a : Action) : Apart cs (steps ++ [(place, a)]) shared := by
  have hsame : (sharing cs).after (steps ++ [(place, a)]) = (sharing cs).after steps := by
    rw [after_append_singleton]
    exact step_of_none (h.absent place hplace) a
  constructor
  · rw [hsame]
    exact h.recorder
  · exact h.coherent
  · exact h.owned
  · rw [hsame]
    exact h.absent
  · intro p
    have hne : place ≠ p := (Nat.lt_of_lt_of_le p.isLt hplace).ne'
    rw [hsame, stepsAt_append_singleton_of_ne steps place a hne]
    exact h.mirrored p

private theorem Apart.exists_append (h : Apart cs steps shared)
    (howners : Function.Injective fun p : Fin cs.length => cs[p].setting.owner)
    (p : Fin cs.length) {a : Action} (ha : a.namedDependent? = none) :
    ∃ shared', Apart cs (steps ++ [(p.val, a)]) shared' := by
  obtain ⟨c, own, howner, hc⟩ := h.mirrored p
  refine ⟨shared.receiveAll (c.reports a), ?_, h.coherent.receiveAll _, ?_, ?_, ?_⟩
  · rw [after_append_singleton]
    exact (hc.left.step a).recorder
  · intro d hd
    by_cases hp : cs[p].setting.owner = d
    · exact ⟨p, hp⟩
    · apply h.owned
      rwa [Recorder.dependenciesOf_receiveAll_of_ne] at hd
      intro x hx
      rwa [Context.dependent_of_mem_reports hc.left.reported ha hx, howner]
  · intro place hplace
    rw [after_append_singleton, at?_step_eq_none_iff]
    exact h.absent place hplace
  · intro q
    rw [after_append_singleton]
    by_cases hpq : p = q
    · subst hpq
      rw [stepsAt_append_singleton_self, after_append_singleton]
      exact ⟨c.performed a, _, (c.owner_performed a).trans howner, hc.step ha⟩
    · obtain ⟨d, own', howner', hd⟩ := h.mirrored q
      have hplaces : p.val ≠ q.val := Fin.val_ne_of_ne hpq
      have hdiffer : c.setting.owner ≠ d.setting.owner := by
        rw [howner, howner']
        exact howners.ne hpq
      rw [stepsAt_append_singleton_of_ne steps p.val a hplaces]
      exact ⟨d, own', howner', hd.step_of_ne hc.left hplaces hdiffer ha⟩

/-- Whatever contexts with different owners do, and in whatever order, they stay apart. -/
private theorem exists_apart (hreported : ∀ c ∈ cs, c.pass.outbox = [])
    (howners : Function.Injective fun p : Fin cs.length => cs[p].setting.owner)
    (hsteps : ∀ s ∈ steps, s.2.namedDependent? = none) : ∃ shared, Apart cs steps shared := by
  -- From the end, since a step is compared after the same steps before it.
  induction steps using List.reverseRecOn with
  | nil => exact ⟨.empty, apart_nil hreported⟩
  | append_singleton steps s ih =>
    rw [List.forall_mem_append, List.forall_mem_singleton] at hsteps
    obtain ⟨shared, hshared⟩ := ih hsteps.1
    obtain ⟨place, a⟩ := s
    by_cases hplace : place < cs.length
    · exact hshared.exists_append howners ⟨place, hplace⟩ hsteps.2
    · exact ⟨shared, hshared.append_of_le (Nat.le_of_not_lt hplace) a⟩

private theorem injective_owner (h : cs.Pairwise fun c d => c.setting.owner ≠ d.setting.owner) :
    Function.Injective fun p : Fin cs.length => cs[p].setting.owner := by
  intro p q heq
  have hne (i j : Fin cs.length) (hij : i < j) : cs[i].setting.owner ≠ cs[j].setting.owner :=
    List.pairwise_iff_getElem.mp h i j i.isLt j.isLt hij
  rcases lt_trichotomy p q with hlt | hpq | hlt
  · exact absurd heq (hne p q hlt)
  · exact hpq
  · exact absurd heq.symm (hne q p hlt)

end Apart

section Sharing

variable {cs : List Context} {steps : List (Nat × Action)}

/-- Contexts with different owners that share a recorder do not interfere. Whatever they do and in
whatever order, the edges from each owner are those that the same steps of its context alone leave
in a recorder of its own. What reads something in the shared recorder does so in one of these
recorders, and the number of edges is the sum of theirs. -/
theorem sharing_eq_alone (hreported : ∀ c ∈ cs, c.pass.outbox = [])
    (howners : cs.Pairwise fun c d => c.setting.owner ≠ d.setting.owner)
    (hsteps : ∀ s ∈ steps, s.2.namedDependent? = none) :
    ∃ (shared : Recorder) (own : Fin cs.length → Recorder),
      ((sharing cs).after steps).managers.at? 0 = some (.recorder shared) ∧
      (∀ p : Fin cs.length, ((sharing [cs[p]]).after (stepsAt steps p)).managers.at? 0 =
        some (.recorder (own p))) ∧
      (∀ p : Fin cs.length, shared.dependenciesOf cs[p].setting.owner =
        (own p).dependenciesOf cs[p].setting.owner) ∧
      (∀ x d, d ∈ shared.dependentsOf x ↔ ∃ p, d ∈ (own p).dependentsOf x) ∧
      shared.size = ∑ p, (own p).size := by
  have hinjective := injective_owner howners
  obtain ⟨shared, hshared⟩ := exists_apart hreported hinjective hsteps
  choose c own howner hmirrored using hshared.mirrored
  have hjoins : shared.Joins (fun p : Fin cs.length => cs[p].setting.owner) own := by
    refine ⟨hshared.coherent, fun p => (hmirrored p).coherent, ?_, hshared.owned, ?_⟩
    · intro p
      rw [← howner p]
      exact (hmirrored p).same
    · intro p d hd
      rw [← howner p]
      by_contra hne
      exact hd ((hmirrored p).only d hne)
  exact ⟨shared, own, hshared.recorder, fun p => (hmirrored p).right.recorder, hjoins.same,
    hjoins.mem_dependentsOf, hjoins.size_eq_sum hinjective⟩

/-- Two owners and a context without one, in turns, with an edge that is registered, a compilation
that is stopped, an evaluation, and a compilation that drops all edges of its owner. -/
theorem sharing_eq_alone_three :
    let a : Endpoint := ⟨.attribute, "a", "area"⟩
    let b : Endpoint := ⟨.attribute, "b", "border"⟩
    let context (label : String) (owner : Option Endpoint) : Context :=
      .new { Setting.bare label with owner := owner } (.cycle [])
    let edge (owner : Option Endpoint) (x : Endpoint) (label : String) : Dependency :=
      ⟨x, owner, some [], some label⟩
    let cs := [context "c" (some a), context "d" (some b), context "e" none]
    let e : Expression := .binary "+" (.call "random" []) (.foreign .null)
    let steps : List (Nat × Action) := [(0, .compile (.call "random" [])), (1, .compile e),
      (2, .compile e), (0, .compile (.literal (.bool true))), (1, .register (.on (.undefined "u"))),
      (2, .evaluate (.call "random" []) .empty)]
    (∀ c ∈ cs, c.pass.outbox = []) ∧ (cs.Pairwise fun c d => c.setting.owner ≠ d.setting.owner) ∧
      (∀ s ∈ steps, s.2.namedDependent? = none) ∧
      ∃ r, ((sharing cs).after steps).managers.at? 0 = some (.recorder r) ∧
        r.dependenciesOf (some a) = [] ∧
        r.dependenciesOf (some b) =
          [edge (some b) .random "d", edge (some b) (.undefined "u") "d"] ∧
        r.dependenciesOf none = [edge none .random "e"] ∧
        none ∈ r.dependentsOf .random ∧ r.size = 3 := by
  intro a b context edge cs e steps
  have hreported : ∀ c ∈ cs, c.pass.outbox = [] := by simp [cs, context, Context.new, Pass.start]
  have howners : cs.Pairwise fun c d => c.setting.owner ≠ d.setting.owner := by
    simp [cs, context, Context.new, a, b]
  have hsteps : ∀ s ∈ steps, s.2.namedDependent? = none := by
    simp [steps, Action.namedDependent?, Dependency.on]
  obtain ⟨r, own, hr, hown, hsame, hreaders, hsize⟩ := sharing_eq_alone hreported howners hsteps
  have hfirst : Recorder.empty.receiveAll
      [.clear a, .register (edge (some a) .random "c"), .clear a] = own 0 :=
    Manager.recorder.inj (Option.some.inj (hown 0))
  have hsecond : Recorder.empty.receiveAll [.clear b, .register (edge (some b) .random "d"),
      .register (edge (some b) (.undefined "u") "d")] = own 1 :=
    Manager.recorder.inj (Option.some.inj (hown 1))
  have hthird : Recorder.empty.receiveAll [.register (edge none .random "e")] = own 2 :=
    Manager.recorder.inj (Option.some.inj (hown 2))
  refine ⟨hreported, howners, hsteps, r, hr, ?_, ?_, ?_, ?_, ?_⟩
  · exact (hsame 0).trans (hfirst ▸ rfl)
  · exact (hsame 1).trans (hsecond ▸ rfl)
  · exact (hsame 2).trans (hthird ▸ rfl)
  · rw [hreaders]
    refine ⟨2, hthird ▸ ?_⟩
    rw [(Recorder.coherent_empty.receiveAll _).mem_dependentsOf]
    exact ⟨edge none .random "e", .head _, rfl⟩
  · rw [hsize]
    change ∑ p : Fin 3, (own p).size = 3
    rw [Fin.sum_univ_three, ← hfirst, ← hsecond, ← hthird]
    rfl

end Sharing

/-- Whether a step begins a compilation for an owner, in a context of the manager at a place. -/
def Recompiles (w : Workspace) (place : Nat) (a : Action) (i : Nat) (o : Endpoint) : Prop :=
  a.beginsCompilation = true ∧ ∃ m, w.contexts.at? place = some m ∧ m.manager = some i ∧
    m.context.setting.owner = some o

section Kept

variable {w : Workspace} {i : Nat} {r : Recorder} (hw : w.Settled)
  (hr : w.managers.at? i = some (.recorder r))
include hw hr

private theorem Settled.exists_step (place : Nat) (a : Action) :
    ∃ r', (w.step place a).managers.at? i = some (.recorder r') ∧
      ∀ d, (∀ o, d = some o → ¬w.Recompiles place a i o) →
        r.dependenciesOf d <+: r'.dependenciesOf d := by
  cases hm : w.contexts.at? place with
  | none =>
    rw [step_of_none hm]
    exact ⟨r, hr, fun d _ => List.prefix_rfl⟩
  | some m =>
    by_cases hmanager : m.manager = some i
    · refine ⟨_, recorder_step hm hmanager hr a, fun d hd => ?_⟩
      apply Recorder.dependenciesOf_prefix_receiveAll
      rintro x hx o rfl rfl
      obtain ⟨hbegins, howner⟩ := Context.clear_mem_reports (hw place m hm) hx
      exact hd o rfl ⟨hbegins, m, hm, hmanager, howner⟩
    · exact ⟨r, (managers_step_of_ne hm hmanager a).trans hr, fun d _ => List.prefix_rfl⟩

private theorem Settled.exists_after (steps : List (Nat × Action)) :
    ∃ r', (w.after steps).managers.at? i = some (.recorder r') ∧
      r.dependenciesOf none <+: r'.dependenciesOf none := by
  induction steps generalizing w r with
  | nil => exact ⟨r, hr, List.prefix_rfl⟩
  | cons s steps ih =>
    obtain ⟨r₁, hr₁, hkept⟩ := hw.exists_step hr s.1 s.2
    obtain ⟨r₂, hr₂, hrest⟩ := ih (hw.step s.1 s.2) hr₁
    exact ⟨r₂, hr₂, (hkept none nofun).trans hrest⟩

/-- At every step of a run, whatever the contexts are that share a recorder and however their
actions end, the recorder keeps the edges of each dependent in their places, unless the step begins
a compilation in a context with this owner. The edges without a dependent are never dropped. -/
theorem dependenciesOf_prefix_step (steps : List (Nat × Action)) (place : Nat) (a : Action) :
    ∃ before later, (w.after steps).managers.at? i = some (.recorder before) ∧
      (w.after (steps ++ [(place, a)])).managers.at? i = some (.recorder later) ∧
      (∀ d, (∀ o, d = some o → ¬(w.after steps).Recompiles place a i o) →
        before.dependenciesOf d <+: later.dependenciesOf d) ∧
      r.dependenciesOf none <+: before.dependenciesOf none ∧
      before.dependenciesOf none <+: later.dependenciesOf none := by
  obtain ⟨before, hbefore, hstart⟩ := hw.exists_after hr steps
  obtain ⟨later, hlater, hkept⟩ := (hw.after steps).exists_step hbefore place a
  refine ⟨before, later, hbefore, ?_, hkept, hstart, hkept none nofun⟩
  rwa [after_append_singleton]

end Kept

/-- When a compilation begins in one of two contexts with the same owner, the edges that the other
one reported are dropped, and no others. -/
theorem dependenciesOf_prefix_step_owner :
    let a : Endpoint := ⟨.attribute, "a", "area"⟩
    let b : Endpoint := ⟨.attribute, "b", "border"⟩
    let context (label : String) (owner : Option Endpoint) : Context :=
      .new { Setting.bare label with owner := owner } (.cycle [])
    let edge (owner : Option Endpoint) (x : Endpoint) (label : String) : Dependency :=
      ⟨x, owner, some [], some label⟩
    let cs := [context "c" (some a), context "d" (some a), context "e" none]
    let steps : List (Nat × Action) := [(0, .compile (.call "random" [])),
      (2, .register ⟨.undefined "u", some b, none, none⟩), (2, .evaluate (.call "random" []) .empty)]
    (sharing cs).Settled ∧ (sharing cs).managers.at? 0 = some (.recorder .empty) ∧
      ∃ before later, ((sharing cs).after steps).managers.at? 0 = some (.recorder before) ∧
        ((sharing cs).after (steps ++ [(1, .willCompile)])).managers.at? 0 =
          some (.recorder later) ∧
        before.dependenciesOf (some a) = [edge (some a) .random "c"] ∧
        later.dependenciesOf (some a) = [] ∧
        edge (some b) (.undefined "u") "e" ∈ later.dependenciesOf (some b) ∧
        edge none .random "e" ∈ later.dependenciesOf none := by
  intro a b context edge cs steps
  have hsettled : (sharing cs).Settled := by
    apply settled_sharing
    simp [cs, context, Context.new, Pass.start]
  have hstart : (sharing cs).managers.at? 0 = some (.recorder .empty) := rfl
  obtain ⟨before, later, hbefore, hlater, hkept, -, hnone⟩ :=
    dependenciesOf_prefix_step hsettled hstart steps 1 .willCompile
  have hheld : Recorder.empty.receiveAll [.clear a, .register (edge (some a) .random "c"),
      .register (edge (some b) (.undefined "u") "e"), .register (edge none .random "e")] = before :=
    Manager.recorder.inj (Option.some.inj hbefore)
  have hleft : before.receiveAll [.clear a] = later := by
    rw [← hheld]
    exact Manager.recorder.inj (Option.some.inj hlater)
  have hdropped : (before.clear (some a)).dependenciesOf (some a) = [] := by
    rw [Recorder.dependenciesOf_clear, if_pos rfl]
  refine ⟨hsettled, hstart, before, later, hbefore, hlater, hheld ▸ rfl, hleft ▸ hdropped, ?_, ?_⟩
  · refine (hkept (some b) ?_).subset (hheld ▸ .head _)
    rintro o ho ⟨-, m, hm, -, howner⟩
    cases hm
    have hsame : some a = some b := howner.trans ho.symm
    simp [a, b] at hsame
  · exact hnone.subset (hheld ▸ .head _)

end Workspace

end FormulaEngine

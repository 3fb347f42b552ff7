import FormulaEngine.Proofs.Bookkeeping
/-!
# Announcements

A change is announced to those who are attached when it happens, once for each attachment and in
order of attachment. What they attach and detach meanwhile is carried out, but only later
announcements go by it. Each announcement has its own version, which counts the announcements.
-/
namespace FormulaEngine

namespace Reaction

/-- The observers after a reaction, in order of attachment. -/
def apply (observers : List String) : Reaction → List String
  | .attach o => observers ++ [o]
  | .detach o => observers.erase o

def applyAll (observers : List String) (rs : List Reaction) : List String :=
  rs.foldl apply observers

/-- Whether reactions can be carried out one after the other: who is detached has to be attached
then. -/
def Possible (observers : List String) : List Reaction → Prop
  | [] => True
  | .attach o :: rest => Possible (apply observers (.attach o)) rest
  | .detach o :: rest => o ∈ observers ∧ Possible (apply observers (.detach o)) rest

private theorem applyAll_append (observers : List String) (rs rs' : List Reaction) :
    applyAll observers (rs ++ rs') = applyAll (applyAll observers rs) rs' :=
  List.foldl_append

private theorem possible_append {observers : List String} {rs rs' : List Reaction} :
    Possible observers (rs ++ rs') ↔
      Possible observers rs ∧ Possible (applyAll observers rs) rs' := by
  induction rs generalizing observers with
  | nil => exact ⟨fun h => ⟨trivial, h⟩, And.right⟩
  | cons r rest ih =>
    cases r with
    | attach o => exact ih
    | detach o => exact (and_congr_right fun _ => ih).trans and_assoc.symm

end Reaction

/-- All that observers do who are told one after the other, when `n` were told before. -/
def Conduct.sequence (conduct : Conduct) (n : Nat) : List String → List Reaction
  | [] => []
  | o :: rest => conduct.reactions n o ++ conduct.sequence (n + 1) rest

namespace Audience

variable {a : Audience} {o : String} {rs : List Reaction} {conduct : Conduct}

private theorem detach_of_mem (h : o ∈ a.observers) :
    a.detach o = .ok { a with observers := a.observers.erase o } :=
  if_pos h

private theorem detach_of_not_mem (h : o ∉ a.observers) : a.detach o = .error ⟨o⟩ :=
  if_neg h

private theorem react_of_possible (h : Reaction.Possible a.observers rs) :
    a.react rs = ({ a with observers := Reaction.applyAll a.observers rs }, none) := by
  induction rs generalizing a with
  | nil => rfl
  | cons r rest ih =>
    cases r with
    | attach o =>
      rw [react]
      exact ih h
    | detach o =>
      rw [react, detach_of_mem h.1]
      exact ih h.2

private theorem isSome_react_of_not_possible (h : ¬Reaction.Possible a.observers rs) :
    (a.react rs).2.isSome := by
  induction rs generalizing a with
  | nil => exact absurd trivial h
  | cons r rest ih =>
    cases r with
    | attach o =>
      rw [react]
      exact ih h
    | detach o =>
      by_cases ho : o ∈ a.observers
      · rw [react, detach_of_mem ho]
        exact ih fun hrest => h ⟨ho, hrest⟩
      · rw [react, detach_of_not_mem ho]
        rfl

private theorem version_tell (a : Audience) (conduct : Conduct) (n : Nat) (os : List String) :
    (a.tell conduct n os).2.1.version = a.version := by
  induction os generalizing a n with
  | nil => rfl
  | cons o rest ih =>
    have hreact := a.version_react (conduct.reactions n o)
    rw [tell]
    cases hr : a.react (conduct.reactions n o) with
    | mk a' e =>
      rw [hr] at hreact
      cases e with
      | some e => exact hreact
      | none => exact (ih a' (n + 1)).trans hreact

private theorem version_announce (a : Audience) (conduct : Conduct) :
    (a.announce conduct).2.1.version = a.version + 1 :=
  version_tell _ conduct 0 a.observers

private theorem tell_of_possible {n : Nat} {os : List String}
    (h : Reaction.Possible a.observers (conduct.sequence n os)) :
    a.tell conduct n os = (os.map (·, a.version),
      { a with observers := Reaction.applyAll a.observers (conduct.sequence n os) }, none) := by
  induction os generalizing a n with
  | nil => rfl
  | cons o rest ih =>
    rw [Conduct.sequence, Reaction.possible_append] at h
    rw [tell, react_of_possible h.1]
    dsimp only
    rw [ih h.2, Conduct.sequence, Reaction.applyAll_append]
    rfl

private theorem isSome_tell_of_not_possible {n : Nat} {os : List String}
    (h : ¬Reaction.Possible a.observers (conduct.sequence n os)) :
    (a.tell conduct n os).2.2.isSome := by
  induction os generalizing a n with
  | nil => exact absurd trivial h
  | cons o rest ih =>
    rw [Conduct.sequence, Reaction.possible_append, not_and] at h
    rw [tell]
    by_cases hfirst : Reaction.Possible a.observers (conduct.reactions n o)
    · rw [react_of_possible hfirst]
      exact ih (h hfirst)
    · have hsome := isSome_react_of_not_possible hfirst
      cases hr : a.react (conduct.reactions n o) with
      | mk a' e =>
        rw [hr] at hsome
        cases e with
        | some e => rfl
        | none => cases hsome

end Audience

def Action.isAnnouncement : Action → Bool
  | .announce _ => true
  | _ => false

namespace Context

private theorem audience_walk {α : Type} (c : Context) (w : Walk α) :
    (c.walk w).2.audience = c.audience := by
  unfold walk
  split <;> rfl

private theorem audience_evaluate (c : Context) (e : Expression) (env : Scope) :
    (c.evaluate e env).2.audience = c.audience := by
  unfold evaluate
  split <;> rfl

private theorem perform_announce (c : Context) (conduct : Conduct) :
    (Action.announce conduct).perform c =
      (match (c.audience.announce conduct).2.2 with
        | none => .ok (.told (c.audience.announce conduct).1)
        | some e => .error (.notAttached e),
      { c with audience := (c.audience.announce conduct).2.1 }) := by
  unfold Action.perform
  dsimp only
  split
  next h => rw [h]
  next h => rw [h]

private theorem version_performed (c : Context) (a : Action) :
    (c.performed a).audience.version = c.audience.version + if a.isAnnouncement then 1 else 0 := by
  have hwalk {α : Type} (c : Context) (w : Walk α) :
      (c.walk w).2.audience.version = c.audience.version := by rw [audience_walk]
  change (a.perform c).2.audience.version = _
  cases a with
  | compile e => exact hwalk _ _
  | evaluate e env =>
    change (c.evaluate e env).2.audience.version = _
    rw [audience_evaluate]
    rfl
  | compileVariable name => exact hwalk _ _
  | evaluateVariable name env => exact hwalk _ _
  | compileFunction name args aggregates => exact hwalk _ _
  | evaluateFunction name args aggregates => exact hwalk _ _
  | run code env => exact hwalk _ _
  | demand code env => exact hwalk _ _
  | register d => exact hwalk _ _
  | detach o =>
    unfold Action.perform
    dsimp only
    split
    next a h => exact Audience.version_detach h
    next => rfl
  | announce conduct =>
    rw [perform_announce]
    exact c.audience.version_announce conduct
  | _ => rfl

private theorem version_after (s : Setting) (draws : Draws) (actions : List Action) :
    ((Context.new s draws).after actions).audience.version =
      actions.countP Action.isAnnouncement := by
  induction actions using List.reverseRecOn with
  | nil => rfl
  | append_singleton actions a ih =>
    rw [after_append_singleton, version_performed, ih, List.countP_append, List.countP_singleton]

private theorem perform_announce_eq_ok_iff (c : Context) (conduct : Conduct) :
    let reactions := conduct.sequence 0 c.audience.observers
    let later : Audience :=
      ⟨Reaction.applyAll c.audience.observers reactions, c.audience.version + 1⟩
    (Action.announce conduct).perform c =
        (.ok (.told (c.audience.observers.map (·, c.audience.version + 1))),
          { c with audience := later }) ↔
      Reaction.Possible c.audience.observers reactions := by
  intro reactions later
  let started : Audience := { c.audience with version := c.audience.version + 1 }
  rw [perform_announce]
  by_cases h : Reaction.Possible c.audience.observers reactions
  · have htell : c.audience.announce conduct = _ := Audience.tell_of_possible (a := started) h
    rw [htell]
    exact iff_of_true rfl h
  · have hsome : (c.audience.announce conduct).2.2.isSome :=
      Audience.isSome_tell_of_not_possible (a := started) h
    obtain ⟨e, he⟩ := Option.isSome_iff_exists.mp hsome
    rw [he]
    exact iff_of_false (fun heq => by cases congrArg Prod.fst heq) h

/-- A context after any actions. Every announcement raises the version by one, so the version counts
the announcements. Unless an observer fails, those who are attached are told, once for each
attachment and in order of attachment, all of the new version, whoever is attached and detached
meanwhile; afterwards the observers are those that the reactions left. To detach an observer drops
its first attachment, and is refused if it has none. -/
theorem announcements_after (s : Setting) (draws : Draws) (actions : List Action) :
    let c := (Context.new s draws).after actions
    let observers := c.audience.observers
    let n := actions.countP Action.isAnnouncement
    c.audience.version = n ∧
      (∀ conduct : Conduct,
        let reactions := conduct.sequence 0 observers
        (Action.announce conduct).perform c = (.ok (.told (observers.map (·, n + 1))),
            { c with audience := ⟨Reaction.applyAll observers reactions, n + 1⟩ }) ↔
          Reaction.Possible observers reactions) ∧
      ∀ o, (Action.attach o).perform c =
          (.ok .nothing, { c with audience := ⟨observers ++ [o], n⟩ }) ∧
        (o ∉ observers → (Action.detach o).perform c = (.error (.notAttached ⟨o⟩), c)) ∧
        ∀ before rest, observers = before ++ o :: rest → o ∉ before →
          (Action.detach o).perform c =
            (.ok .nothing, { c with audience := ⟨before ++ rest, n⟩ }) := by
  intro c observers n
  have hversion : c.audience.version = n := version_after s draws actions
  refine ⟨hversion, fun conduct => ?_, fun o => ⟨?_, fun ho => ?_, fun before rest hsplit ho => ?_⟩⟩
  · have hannounce := c.perform_announce_eq_ok_iff conduct
    rwa [hversion] at hannounce
  · rw [← hversion]
    rfl
  · rw [Action.perform, Audience.detach_of_not_mem ho]
  · have hmem : o ∈ c.audience.observers := by
      change o ∈ observers
      simp [hsplit]
    have hfirst : c.audience.observers.erase o = before ++ rest := by
      change observers.erase o = _
      rw [hsplit, List.erase_append_right _ ho, List.erase_cons_head]
    rw [Action.perform, Audience.detach_of_mem hmem, hfirst, hversion]

/-- An observer that is attached twice detaches itself and another one the first time, and attaches
itself once more the second time. -/
theorem announcements_after_reentrant :
    let conduct : Conduct :=
      ⟨fun n _ => [[.detach "a", .detach "b"], [.attach "c"], [.attach "a"]].getD n []⟩
    let silent : Conduct := ⟨fun _ _ => []⟩
    let c := (Context.new (.bare "c") (.cycle [])).after
      [.attach "a", .attach "b", .announce silent, .attach "a"]
    (Action.announce conduct).perform c = (.ok (.told [("a", 2), ("b", 2), ("a", 2)]),
        { c with audience := ⟨["a", "c", "a"], 2⟩ }) ∧
      (Action.detach "c").perform c = (.error (.notAttached ⟨"c"⟩), c) ∧
      (Action.detach "a").perform c = (.ok .nothing, { c with audience := ⟨["b", "a"], 1⟩ }) := by
  intro conduct silent c
  obtain ⟨-, hannounce, hdetach⟩ := announcements_after (.bare "c") (.cycle [])
    [.attach "a", .attach "b", .announce silent, .attach "a"]
  have hpossible : Reaction.Possible ["a", "b", "a"] (conduct.sequence 0 ["a", "b", "a"]) :=
    ⟨by decide, by decide, trivial⟩
  refine ⟨(hannounce conduct).mpr hpossible, (hdetach "c").2.1 (by decide), ?_⟩
  exact (hdetach "a").2.2 [] ["b", "a"] rfl List.not_mem_nil

end Context

end FormulaEngine

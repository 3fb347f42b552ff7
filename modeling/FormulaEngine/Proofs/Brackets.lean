import FormulaEngine.Proofs.Bookkeeping
import FormulaEngine.Proofs.Discovery
/-!
# Brackets

Calls are begun and ended like brackets that are opened and closed. Where each opening bracket has
its closing one, every call is ended as asked, and the calls that were open before are open after.
An attempt to end another call than the innermost one changes nothing and is reported, once. So the
openings tell the depth, less the attempts that succeed.
-/
namespace FormulaEngine

/-- A call is begun, or a call is ended. Of a call to be ended only the name counts, and there may
be no such call. -/
inductive Bracket where
  | opening (call : OpenCall)
  | closing (call : Option OpenCall)

namespace Bracket

def action : Bracket → Action
  | .opening call => .beginCall call
  | .closing call => .endCall (call.map OpenCall.name)

def isOpening : Bracket → Bool
  | .opening _ => true
  | .closing _ => false

/-- Sequences in which every call that is begun is ended by its name, after the calls inside it. -/
inductive WellNested : List Bracket → Prop
  | nil : WellNested []
  | append {bs bs' : List Bracket} : WellNested bs → WellNested bs' → WellNested (bs ++ bs')
  | call {f g : OpenCall} {bs : List Bracket} (same : g.name = f.name) :
      WellNested bs → WellNested (.opening f :: bs ++ [.closing (some g)])

end Bracket

private theorem Imbalance.prefix_message (i : Imbalance) :
    "StackImbalance: ".toList <+: i.message.toList := by
  have hstart : "StackImbalance: ".toList <+:
      "StackImbalance: attempt to end function context ".toList := by decide
  unfold message
  simp only [String.toList_append, List.append_assoc]
  exact hstart.trans (List.prefix_append ..)

namespace Context

private theorem after_append (c : Context) (actions actions' : List Action) :
    c.after (actions ++ actions') = (c.after actions).after actions' :=
  List.foldl_append

private theorem history_append (c : Context) (actions actions' : List Action) :
    c.history (actions ++ actions') = c.history actions ++ (c.after actions).history actions' := by
  induction actions generalizing c with
  | nil => rfl
  | cons a actions ih => exact congrArg (⟨c, a⟩ :: ·) (ih (c.performed a))

namespace Step

def outcome (x : Step) : Except Refusal Answer :=
  (x.action.perform x.before).1

/-- The pass after a step, with what has still to be reported. -/
def pass (x : Step) : Pass :=
  (x.action.perform x.before).2.pass

/-- Whether a step has some imbalances to report, besides those from before. -/
def Logs (x : Step) (reports : List Imbalance) : Prop :=
  x.pass.imbalances = x.before.pass.imbalances ++ reports

def succeeds (x : Step) : Bool :=
  match x.outcome with
  | .ok (.flag b) => b
  | _ => false

private theorem succeeds_of_outcome {x : Step} {b : Bool} (h : x.outcome = .ok (.flag b)) :
    x.succeeds = b := by
  unfold succeeds
  rw [h]

end Step

section

variable {c : Context} {call : OpenCall} {calls : List OpenCall} {name : Option String}

private theorem exists_of_isInnermost (h : c.pass.isInnermost name = true) :
    ∃ call calls, c.pass.openCalls = call :: calls ∧ name = some call.name := by
  unfold Pass.isInnermost at h
  cases hcalls : c.pass.openCalls with
  | nil =>
    rw [hcalls] at h
    cases h
  | cons call calls =>
    rw [hcalls] at h
    exact ⟨call, calls, rfl, of_decide_eq_true h⟩

private theorem endCall_of_openCalls (h : c.pass.openCalls = call :: calls) :
    let x : Step := ⟨c, .endCall (some call.name)⟩
    x.outcome = .ok (.flag true) ∧ x.Logs [] ∧ x.pass.openCalls = calls := by
  intro x
  have hpass : x.pass = { c.pass with openCalls := calls } := Pass.endCall_of_openCalls h
  have hinnermost : c.pass.isInnermost (some call.name) = true := by simp [Pass.isInnermost, h]
  refine ⟨?_, ?_, ?_⟩
  · change Except.ok (Answer.flag (c.pass.isInnermost (some call.name))) = _
    rw [hinnermost]
  · rw [Step.Logs, hpass, List.append_nil]
  · rw [hpass]

private theorem endCall_of_not_isInnermost (h : c.pass.isInnermost name = false) :
    let x : Step := ⟨c, .endCall name⟩
    x.outcome = .ok (.flag false) ∧ x.pass.openCalls = c.pass.openCalls ∧
      x.Logs [⟨name, c.pass.openCalls.head?.map OpenCall.name⟩] := by
  intro x
  have hpass := Pass.endCall_of_not_isInnermost h
  refine ⟨?_, ?_, ?_⟩
  · change Except.ok (Answer.flag (c.pass.isInnermost name)) = _
    rw [h]
  · change (c.pass.endCall name).openCalls = _
    rw [hpass]
  · change (c.pass.endCall name).imbalances = _
    rw [hpass]

end

/-- Whether nothing is reported in a step and the call is ended, if the step is to end one. -/
def Step.Passes (x : Step) : Prop :=
  x.Logs [] ∧ ∀ name, x.action = .endCall name → x.outcome = .ok (.flag true)

private theorem passes_beginCall (c : Context) (call : OpenCall) :
    Step.Passes ⟨c, .beginCall call⟩ :=
  ⟨(List.append_nil _).symm, nofun⟩

/-- A well nested sequence leaves the open calls as they were, whatever is open around it. -/
private theorem passes_of_wellNested {bs : List Bracket} (h : Bracket.WellNested bs) (c : Context) :
    (c.after (bs.map Bracket.action)).pass.openCalls = c.pass.openCalls ∧
      ∀ x ∈ c.history (bs.map Bracket.action), x.Passes := by
  induction h generalizing c with
  | nil => exact ⟨rfl, List.forall_mem_nil _⟩
  | @append bs bs' _ _ ih ih' =>
    obtain ⟨hcalls, hpasses⟩ := ih c
    obtain ⟨hcalls', hpasses'⟩ := ih' (c.after (bs.map Bracket.action))
    rw [List.map_append, after_append, history_append]
    exact ⟨hcalls'.trans hcalls, List.forall_mem_append.mpr ⟨hpasses, hpasses'⟩⟩
  | @call f g bs hname _ ih =>
    let inside := (c.performed (.beginCall f)).after (bs.map Bracket.action)
    obtain ⟨hcalls, hpasses⟩ := ih (c.performed (.beginCall f))
    have hinside : inside.pass.openCalls = f :: c.pass.openCalls := hcalls
    obtain ⟨hanswer, hlogs, hclosed⟩ := endCall_of_openCalls hinside
    rw [← hname] at hanswer hlogs hclosed
    rw [List.map_append, after_append, history_append]
    refine ⟨hclosed, List.forall_mem_append.mpr ⟨?_, ?_⟩⟩
    · exact List.forall_mem_cons.mpr ⟨c.passes_beginCall f, hpasses⟩
    · exact List.forall_mem_singleton.mpr ⟨hlogs, fun _ _ => hanswer⟩

/-- Whether a step begins a call, or answers whether it has ended one. If it has not, the open calls
stay as they were and there is one report, an imbalance, and in all other cases there is none. -/
def Step.Accounts (x : Step) : Prop :=
  (∃ call, x.action = .beginCall call) ∧ x.outcome = .ok .nothing ∧ x.Logs [] ∨
    (∃ name, x.action = .endCall name) ∧
      (x.outcome = .ok (.flag true) ∧ x.Logs [] ∨
        x.outcome = .ok (.flag false) ∧ x.pass.openCalls = x.before.pass.openCalls ∧
          ∃ i : Imbalance, x.Logs [i] ∧ "StackImbalance: ".toList <+: i.message.toList)

private theorem accounts_bracket (c : Context) (b : Bracket) :
    let x : Step := ⟨c, b.action⟩
    x.Accounts ∧ c.pass.depth + (if b.isOpening then 1 else 0) =
      (c.performed b.action).pass.depth + if x.succeeds then 1 else 0 := by
  intro x
  cases b with
  | opening call => exact ⟨.inl ⟨⟨call, rfl⟩, rfl, (List.append_nil _).symm⟩, rfl⟩
  | closing call =>
    let name := call.map OpenCall.name
    cases h : c.pass.isInnermost name with
    | true =>
      obtain ⟨innermost, calls, hcalls, hname⟩ := exists_of_isInnermost h
      obtain ⟨hanswer, hlogs, hclosed⟩ := endCall_of_openCalls hcalls
      rw [← hname] at hanswer hlogs hclosed
      refine ⟨.inr ⟨⟨name, rfl⟩, .inl ⟨hanswer, hlogs⟩⟩, ?_⟩
      have hsucceeds : x.succeeds = true := Step.succeeds_of_outcome hanswer
      have hdepth : (c.performed (.endCall name)).pass.depth = calls.length :=
        congrArg List.length hclosed
      rw [hsucceeds, Bracket.action, hdepth, Pass.depth, hcalls]
      rfl
    | false =>
      obtain ⟨hanswer, hkept, hlogs⟩ := endCall_of_not_isInnermost h
      refine ⟨.inr ⟨⟨name, rfl⟩, .inr ⟨hanswer, hkept, _, hlogs, Imbalance.prefix_message _⟩⟩, ?_⟩
      have hsucceeds : x.succeeds = false := Step.succeeds_of_outcome hanswer
      have hdepth : (c.performed (.endCall name)).pass.depth = c.pass.depth :=
        congrArg List.length hkept
      rw [hsucceeds, Bracket.action, hdepth]
      rfl

private theorem accounts_after (c : Context) (bs : List Bracket) :
    let steps := c.history (bs.map Bracket.action)
    (∀ x ∈ steps, x.Accounts) ∧ c.pass.depth + bs.countP Bracket.isOpening =
      (c.after (bs.map Bracket.action)).pass.depth + steps.countP Step.succeeds := by
  induction bs generalizing c with
  | nil => exact ⟨List.forall_mem_nil _, rfl⟩
  | cons b bs ih =>
    obtain ⟨haccounts, hdepth⟩ := c.accounts_bracket b
    obtain ⟨hrest, hdepths⟩ := ih (c.performed b.action)
    refine ⟨List.forall_mem_cons.mpr ⟨haccounts, hrest⟩, ?_⟩
    rw [List.map_cons, history, List.countP_cons, List.countP_cons]
    change _ = ((c.performed b.action).after (bs.map Bracket.action)).pass.depth + _
    omega

/-- The law of brackets, whatever is open when they begin. In a well nested sequence every call that
is to be ended is ended, nothing is reported, and the open calls are the same afterwards. In any
sequence no step fails, whoever is refused changes nothing and is reported once, and the depth at
the beginning and the openings make up the depth at the end and the attempts that succeeded. -/
theorem bracket_law (c : Context) :
    (∀ bs, Bracket.WellNested bs →
      (c.after (bs.map Bracket.action)).pass.openCalls = c.pass.openCalls ∧
        ∀ x ∈ c.history (bs.map Bracket.action), x.Passes) ∧
      ∀ bs : List Bracket,
        let steps := c.history (bs.map Bracket.action)
        (∀ x ∈ steps, x.Accounts) ∧ c.pass.depth + bs.countP Bracket.isOpening =
          (c.after (bs.map Bracket.action)).pass.depth + steps.countP Step.succeeds :=
  ⟨fun _ h => passes_of_wellNested h c, c.accounts_after⟩

/-- Unnamed calls, inside one that is unnamed too. Then the attempts to end no call, or a call that
is not the innermost one, are refused. -/
theorem bracket_law_unnamed :
    let start := Context.new (.bare "c") (.cycle [])
    let c := start.after [.beginCall ⟨"", false⟩]
    let nested : List Bracket := [.opening ⟨"", true⟩, .opening ⟨"f", false⟩,
      .closing (some ⟨"f", true⟩), .closing (some ⟨"", false⟩)]
    let stray : List Bracket := [.closing none, .closing (some ⟨"f", false⟩),
      .closing (some ⟨"", true⟩), .closing (some ⟨"", true⟩)]
    Bracket.WellNested nested ∧
      (c.after (nested.map Bracket.action)).pass.openCalls = [⟨"", false⟩] ∧
      1 = (c.after (stray.map Bracket.action)).pass.depth +
        (c.history (stray.map Bracket.action)).countP Step.succeeds ∧
      (c.history (stray.map Bracket.action)).countP Step.succeeds = 1 := by
  intro start c nested stray
  have hnested : Bracket.WellNested nested :=
    .call (f := ⟨"", true⟩) (g := ⟨"", false⟩) rfl
      (.call (f := ⟨"f", false⟩) (g := ⟨"f", true⟩) rfl .nil)
  obtain ⟨hlaw, hany⟩ := bracket_law c
  exact ⟨hnested, (hlaw nested hnested).1, (hany stray).2, rfl⟩

end Context

end FormulaEngine

import FormulaEngine.Proofs.Logic
import FormulaEngine.Proofs.Soundness
/-!
# Chains of concatenations

A concatenation runs both of its operands, whatever the first one comes to, and joins their texts.
The text of a joined text is that text, and an error goes through as it is. So a chain of
concatenations runs its operands once each from the left, wherever its brackets are, and comes to
the first error among their values or to all of their texts, one after the other. An integer of too
many digits has no text: it stops a chain without errors, and its brackets tell when.
-/
namespace FormulaEngine

namespace Value

def textAll : List Value → Except Trap String
  | [] => .ok ""
  | v :: vs => do
    let s ← v.toText
    let t ← textAll vs
    return s ++ t

/-- Values as texts, one after the other, or the first error among them. -/
def joinAll (vs : List Value) : Except Trap Value :=
  match firstError? vs with
  | some e => .ok (.error e)
  | none => (textAll vs).map .text

private theorem textAll_append (vs ws : List Value) :
    textAll (vs ++ ws) = do return (← textAll vs) ++ (← textAll ws) := by
  induction vs with
  | nil =>
    change textAll ws = textAll ws >>= fun t => pure ("" ++ t)
    simp
  | cons v vs ih =>
    have hcons (us : List Value) :
        textAll (v :: us) = v.toText >>= fun s => textAll us >>= fun t => pure (s ++ t) := rfl
    rw [List.cons_append, hcons, hcons, ih]
    simp only [bind_assoc, pure_bind, String.append_assoc]

private theorem textAll_singleton (v : Value) : textAll [v] = v.toText := by
  change (v.toText >>= fun s => pure (s ++ "")) = v.toText
  simp

private theorem textAll_eq_error_iff {vs : List Value} {t : Trap} :
    textAll vs = .error t ↔ t = .tooManyDigits ∧ ∃ v ∈ vs, v.IsLong := by
  induction vs with
  | nil => simp [textAll]
  | cons v vs ih =>
    by_cases hv : v.IsLong
    · rw [textAll, toText_of_isLong hv]
      simp [bind, Except.bind, hv, eq_comm]
    · obtain ⟨s, hs⟩ := exists_toText hv
      have htail : textAll (v :: vs) = textAll vs >>= fun t => pure (s ++ t) := by
        rw [textAll, hs]
        rfl
      rw [htail, Except.bind_eq_error_iff, ih]
      simp [hv, pure, Except.pure]

private theorem joinAll_eq_error_iff {vs : List Value} {t : Trap} :
    joinAll vs = .error t ↔ t = .tooManyDigits ∧ firstError? vs = none ∧ ∃ v ∈ vs, v.IsLong := by
  unfold joinAll
  cases firstError? vs with
  | some e => simp
  | none => cases h : textAll vs <;> simp [Except.map, ← textAll_eq_error_iff, h]

/-- Whether a value counts in a concatenation for as much as some values in a row. -/
structure StandsFor (v : Value) (vs : List Value) : Prop where
  error?_eq : v.error? = firstError? vs
  toText_eq : firstError? vs = none → v.toText = textAll vs

private theorem standsFor_self (v : Value) : v.StandsFor [v] where
  error?_eq := by rw [firstError?_cons, firstError?_nil, Option.or_none]
  toText_eq _ := (textAll_singleton v).symm

private theorem standsFor_of_joinAll {v : Value} {vs : List Value} (h : joinAll vs = .ok v) :
    v.StandsFor vs := by
  unfold joinAll at h
  cases hfirst : firstError? vs with
  | some e =>
    rw [hfirst] at h
    cases h
    exact ⟨hfirst.symm, fun hnone => by cases hnone.symm.trans hfirst⟩
  | none =>
    rw [hfirst] at h
    cases htexts : textAll vs with
    | error t =>
      rw [htexts] at h
      cases h
    | ok s =>
      rw [htexts] at h
      cases h
      exact ⟨hfirst.symm, fun _ => htexts.symm⟩

private theorem StandsFor.joinAll {v w : Value} {vs ws : List Value} (hv : v.StandsFor vs)
    (hw : w.StandsFor ws) : Value.joinAll [v, w] = Value.joinAll (vs ++ ws) := by
  have herror : firstError? [v, w] = firstError? (vs ++ ws) := by
    rw [firstError?_cons, firstError?_cons, firstError?_nil, Option.or_none, hv.error?_eq,
      hw.error?_eq, firstError?_append]
  rw [Value.joinAll, Value.joinAll, herror]
  cases h : firstError? (vs ++ ws) with
  | some e => rfl
  | none =>
    rw [firstError?_append, Option.or_eq_none_iff] at h
    have htexts : textAll [v, w] = textAll (vs ++ ws) := by
      rw [textAll_append, ← hv.toText_eq h.1, ← hw.toText_eq h.2, textAll, textAll_singleton]
    rw [htexts]

end Value

private theorem applyOperator_concatenate (v w : Value) :
    applyOperator "&" [v, w] = Fault.ofTrap (Value.joinAll [v, w]) := by
  rw [applyOperator, applyBinary, Value.joinAll]
  cases Value.firstError? [v, w] with
  | some e => rfl
  | none =>
    have hop : BinaryOperator.ofSymbol? "&" = some .concatenate := rfl
    rw [hop, Value.textAll, Value.textAll_singleton]
    change Fault.ofTrap (Value.join v w) = Fault.ofTrap (Except.map Value.text _)
    unfold Value.join
    cases v.toText with
    | error t => rfl
    | ok s => cases w.toText <;> rfl

namespace Recording

variable {α β : Type} {x : Recording α} {f : α → Recording β}

/-- Whether a recording does the same whatever was recorded before it. -/
def Uniform (x : Recording α) : Prop :=
  ∀ d, ∃ o d' new, ∀ known, x ⟨d, known⟩ = lift o ⟨d', known ++ new⟩

private theorem uniform_lift (o : Except Fault α) : Uniform (lift o) := by
  intro d
  exact ⟨o, d, [], fun known => by rw [List.append_nil]⟩

private theorem uniform_complete (v : Value) : Uniform (complete v) :=
  fun d => ⟨.ok v, d, [v], fun _ => rfl⟩

private theorem uniform_ofRun (y : Run α) : Uniform (ofRun y) := by
  intro d
  cases hy : y d with
  | ok a d' =>
    refine ⟨.ok a, d', [], fun known => ?_⟩
    rw [ofRun, hy, List.append_nil]
    rfl
  | error e d' =>
    refine ⟨.error e, d', [], fun known => ?_⟩
    rw [ofRun, hy, List.append_nil]
    rfl

private theorem Uniform.bind (hx : Uniform x) (hf : ∀ a, Uniform (f a)) : Uniform (x >>= f) := by
  intro d
  obtain ⟨o, d', new, hxd⟩ := hx d
  cases o with
  | error e => exact ⟨.error e, d', new, fun known => bind_of_error (hxd known)⟩
  | ok a =>
    obtain ⟨o, d'', new', hfd⟩ := hf a d'
    refine ⟨o, d'', new ++ new', fun known => ?_⟩
    rw [bind_of_ok (hxd known), hfd, List.append_assoc]

end Recording

namespace Code

open Recording

variable {s : Setting} {env : Scope}

private theorem recordAll_uniform {cs : List Code} (ih : ∀ c ∈ cs, Uniform (record s env c)) :
    Uniform (recordAll s env cs) := by
  induction cs with
  | nil => exact uniform_lift (.ok [])
  | cons c cs ihs =>
    rw [List.forall_mem_cons] at ih
    rw [recordAll]
    exact ih.1.bind fun v => (ihs ih.2).bind fun vs => uniform_lift (.ok (v :: vs))

private theorem record_uniform (s : Setting) (env : Scope) (c : Code) :
    Uniform (record s env c) := by
  induction c with
  | constant v => exact uniform_complete v
  | read scope name =>
    rw [record]
    exact uniform_complete _
  | call scope name args ih =>
    rw [record]
    exact (recordAll_uniform ih).bind fun vs => (uniform_ofRun _).bind uniform_complete
  | operation op operands ih =>
    rw [record]
    cases Logical.ofSymbol? op with
    | none => exact (recordAll_uniform ih).bind fun vs => (uniform_ofRun _).bind uniform_complete
    | some l =>
      cases operands with
      | nil => exact uniform_lift (.error .missingOperand)
      | cons first rest =>
        refine (ih first (by simp)).bind fun v => ?_
        split
        · exact uniform_complete v
        · refine (uniform_ofRun _).bind fun t => ?_
          split
          · exact uniform_complete v
          · cases rest with
            | nil => exact uniform_lift (.error .missingOperand)
            | cons second rest => exact (ih second (by simp)).bind uniform_complete
  | deferred e => exact uniform_complete (.error e)

private theorem record_of_nil {c : Code} {d d' : Draws} {v : Value} {new : List Value}
    (h : record s env c ⟨d, []⟩ = .ok v ⟨d', new⟩) (known : List Value) :
    record s env c ⟨d, known⟩ = .ok v ⟨d', known ++ new⟩ := by
  obtain ⟨o, u, new', huniform⟩ := record_uniform s env c d
  have hnil := h.symm.trans (huniform [])
  cases o with
  | error f => cases hnil
  | ok w =>
    cases hnil
    exact huniform known

private theorem run_of_record {c : Code} {d d' : Draws} {v : Value} {known all : List Value}
    (h : record s env c ⟨d, known⟩ = .ok v ⟨d', all⟩) : run s env c d = .ok v d' := by
  obtain ⟨o, u, new, hrun, hrecord, -⟩ := record_follows s env c ⟨d, known⟩
  have hvalue := h.symm.trans hrecord
  cases o with
  | error f => cases hvalue
  | ok w =>
    cases hvalue
    exact hrun

/-- How operands are run from the left, each of them once: the values that they come to, and the
values of all nodes inside them, in order of completion. -/
inductive Visits (s : Setting) (env : Scope) :
    List Code → Draws → List Value → List Value → Draws → Prop
  | nil (d : Draws) : Visits s env [] d [] [] d
  | cons {c : Code} {cs : List Code} {d d' d'' : Draws} {v : Value} {vs new inside : List Value}
      (h : record s env c ⟨d, []⟩ = .ok v ⟨d', new⟩) (hrest : Visits s env cs d' vs inside d'') :
      Visits s env (c :: cs) d (v :: vs) (new ++ inside) d''

private theorem exists_visits {cs : List Code} {d d' : Draws} {vs : List Value}
    (h : runAll s env cs d = .ok vs d') : ∃ inside, Visits s env cs d vs inside d' := by
  induction cs generalizing d vs with
  | nil =>
    cases h
    exact ⟨[], .nil d'⟩
  | cons c cs ih =>
    rw [runAll] at h
    obtain ⟨v, u, hv, h⟩ := bind_eq_ok_iff.mp h
    obtain ⟨ws, u', hws, h⟩ := bind_eq_ok_iff.mp h
    cases h
    obtain ⟨inside, hrest⟩ := ih hws
    obtain ⟨o, u'', new, hrun, hrecord, -⟩ := record_follows s env c ⟨d, []⟩
    obtain ⟨rfl, rfl⟩ := Run.lift_inj (o := .ok v) (hv.symm.trans hrun)
    exact ⟨new ++ inside, .cons hrecord hrest⟩

private theorem Visits.of_append {cs ds : List Code} {d d' : Draws} {us inside : List Value}
    (h : Visits s env (cs ++ ds) d us inside d') :
    ∃ vs ws left right u, us = vs ++ ws ∧ inside = left ++ right ∧ Visits s env cs d vs left u ∧
      Visits s env ds u ws right d' := by
  induction cs generalizing d us inside with
  | nil => exact ⟨[], us, [], inside, d, rfl, rfl, .nil d, h⟩
  | cons c cs ih =>
    cases h with
    | cons hrecord hrest =>
      obtain ⟨vs, ws, left, right, u, rfl, rfl, hleft, hright⟩ := ih hrest
      exact ⟨_, ws, _, right, u, rfl, (List.append_assoc ..).symm, .cons hrecord hleft, hright⟩

private theorem runAll_append (cs ds : List Code) :
    runAll s env (cs ++ ds) =
      runAll s env cs >>= fun vs => runAll s env ds >>= fun ws => pure (vs ++ ws) := by
  induction cs with
  | nil => simp [runAll]
  | cons c cs ih => simp [runAll, ih]

/-- Whether every value that operands come to, as far as they run, has a text. -/
def HaveTexts (s : Setting) (env : Scope) (cs : List Code) (d : Draws) : Prop :=
  ∀ before, before <+: cs → ∀ vs u, runAll s env before d = .ok vs u → ∀ v ∈ vs, ¬v.IsLong

private theorem runAll_append_of_ok {cs ds : List Code} {d u : Draws} {vs : List Value}
    (h : runAll s env cs d = .ok vs u) :
    runAll s env (cs ++ ds) d = (runAll s env ds >>= fun ws => pure (vs ++ ws)) u := by
  rw [runAll_append, bind_of_ok h]

private theorem HaveTexts.left {cs ds : List Code} {d : Draws} (h : HaveTexts s env (cs ++ ds) d) :
    HaveTexts s env cs d :=
  fun before hbefore => h before (hbefore.trans (List.prefix_append cs ds))

private theorem HaveTexts.right {cs ds : List Code} {d u : Draws} {vs : List Value}
    (h : HaveTexts s env (cs ++ ds) d) (hcs : runAll s env cs d = .ok vs u) :
    HaveTexts s env ds u := by
  intro before hbefore ws u' hrun v hv
  have hall : runAll s env (cs ++ before) d = .ok (vs ++ ws) u' := by
    rw [runAll_append_of_ok hcs, bind_of_ok hrun]
    rfl
  exact h _ ((List.prefix_append_right_inj cs).mpr hbefore) _ _ hall v (by simp [hv])

private theorem haveTexts_of_runAll {cs : List Code} {d d' : Draws} {vs : List Value}
    (h : runAll s env cs d = .ok vs d') (hvs : ∀ v ∈ vs, ¬v.IsLong) : HaveTexts s env cs d := by
  rintro before ⟨rest, rfl⟩ ws u hbefore v hv
  rw [runAll_append_of_ok hbefore] at h
  obtain ⟨us, u', -, hall⟩ := bind_eq_ok_iff.mp h
  cases hall
  exact hvs v (by simp [hv])

namespace Bracketing

/-- Whether a chain comes to a value and produces the values inside its operands on the way, in
order, and one more value for each concatenation. -/
def Produces (s : Setting) (env : Scope) (t : Bracketing (· = "&")) (d : Draws) (v : Value)
    (inside : List Value) (d' : Draws) : Prop :=
  ∃ all, (∀ known, record s env t.code ⟨d, known⟩ = .ok v ⟨d', known ++ all⟩) ∧
    inside.Sublist all ∧ all.length + 1 = inside.length + t.operands.length

variable {t left right : Bracketing (· = "&")} {d d' u : Draws} {v w z : Value}
  {vs inside inside' : List Value}

private theorem Produces.run (h : t.Produces s env d v inside d') :
    run s env t.code d = .ok v d' := by
  obtain ⟨all, hrecord, -⟩ := h
  exact run_of_record (hrecord [])

private theorem Produces.join (hv : left.Produces s env d v inside u)
    (hw : right.Produces s env u w inside' d') (hz : Value.joinAll [v, w] = .ok z) :
    (join "&" rfl left right : Bracketing (· = "&")).Produces s env d z (inside ++ inside') d' := by
  obtain ⟨allLeft, hleft, hsubLeft, hlenLeft⟩ := hv
  obtain ⟨allRight, hright, hsubRight, hlenRight⟩ := hw
  refine ⟨allLeft ++ allRight ++ [z], ?_, ?_, ?_⟩
  · intro known
    rw [code, record_binary_of_strict rfl, bind_of_ok (hleft known), bind_of_ok (hright _),
      applyOperator_concatenate, hz]
    simp only [← List.append_assoc]
    rfl
  · exact (hsubLeft.append hsubRight).trans (List.sublist_append_left _ _)
  · rw [operands]
    simp only [List.length_append, List.length_singleton]
    omega

private theorem run_join (left right : Bracketing (· = "&")) :
    Code.run s env (join "&" rfl left right : Bracketing (· = "&")).code =
      Code.run s env left.code >>= fun v => Code.run s env right.code >>= fun w =>
        Run.lift (Fault.ofTrap (Value.joinAll [v, w])) := by
  rw [code, run_binary_of_strict rfl]
  simp only [applyOperator_concatenate]

/-- If no operand stops, and none comes to an error or all of them come to values with a text, then
a chain comes to a value that stands for theirs, unless one of these has no text. -/
private theorem produces_or_stops (t : Bracketing (· = "&"))
    (h : Visits s env t.operands d vs inside d')
    (hvs : Value.firstError? vs = none ∨ ∀ v ∈ vs, ¬v.IsLong) :
    (∃ v, v.StandsFor vs ∧ (1 < t.operands.length → Value.joinAll vs = .ok v) ∧
        t.Produces s env d v inside d') ∨
      (∃ v ∈ vs, v.IsLong) ∧ ∃ u, Code.run s env t.code d = .error (.trap .tooManyDigits) u := by
  induction t generalizing d d' vs inside with
  | operand c =>
    cases h with
    | @cons _ _ _ _ _ v _ new _ hrecord hrest =>
      cases hrest
      refine .inl ⟨v, v.standsFor_self, fun hlt => absurd hlt (by simp [operands]), new, ?_⟩
      exact ⟨record_of_nil hrecord, by simp, by simp [operands]⟩
  | join op hop left right ihl ihr =>
    subst hop
    obtain ⟨vs, ws, insideLeft, insideRight, u, rfl, rfl, hleft, hright⟩ := h.of_append
    have hparts : (Value.firstError? vs = none ∨ ∀ v ∈ vs, ¬v.IsLong) ∧
        (Value.firstError? ws = none ∨ ∀ v ∈ ws, ¬v.IsLong) := by
      rcases hvs with hnone | hshort
      · rw [Value.firstError?_append, Option.or_eq_none_iff] at hnone
        exact ⟨.inl hnone.1, .inl hnone.2⟩
      · rw [List.forall_mem_append] at hshort
        exact ⟨.inr hshort.1, .inr hshort.2⟩
    have hlong {v : Value} (h : v ∈ vs ∨ v ∈ ws) : v ∈ vs ++ ws := List.mem_append.mpr h
    rw [run_join]
    rcases ihl hleft hparts.1 with ⟨v, hv, -, hpv⟩ | ⟨⟨v, hv, hv'⟩, u', hstop⟩
    · rw [bind_of_ok hpv.run]
      rcases ihr hright hparts.2 with ⟨w, hw, -, hpw⟩ | ⟨⟨w, hw, hw'⟩, u', hstop⟩
      · have hjoin := hv.joinAll hw
        rw [bind_of_ok hpw.run, hjoin]
        cases hz : Value.joinAll (vs ++ ws) with
        | ok z =>
          exact .inl ⟨z, Value.standsFor_of_joinAll hz, fun _ => rfl, hpv.join hpw (hjoin.trans hz)⟩
        | error x =>
          obtain ⟨rfl, -, hx⟩ := Value.joinAll_eq_error_iff.mp hz
          exact .inr ⟨hx, d', rfl⟩
      · exact .inr ⟨⟨w, hlong (.inr hw), hw'⟩, u', bind_of_error hstop⟩
    · exact .inr ⟨⟨v, hlong (.inl hv), hv'⟩, u', bind_of_error hstop⟩

private theorem exists_produces (t : Bracketing (· = "&"))
    (h : runAll s env t.operands d = .ok vs d') (hvs : ∀ v ∈ vs, ¬v.IsLong) :
    ∃ v inside, (1 < t.operands.length → Value.joinAll vs = .ok v) ∧
      Visits s env t.operands d vs inside d' ∧ t.Produces s env d v inside d' := by
  obtain ⟨inside, hvisits⟩ := exists_visits h
  rcases t.produces_or_stops hvisits (.inr hvs) with ⟨v, -, hjoin, hproduces⟩ | ⟨⟨v, hv, hlong⟩, -⟩
  · exact ⟨v, inside, hjoin, hvisits, hproduces⟩
  · exact absurd hlong (hvs v hv)

private theorem run_of_stop (t : Bracketing (· = "&")) {f : Fault}
    (h : runAll s env t.operands d = .error f d') (htexts : HaveTexts s env t.operands d) :
    Code.run s env t.code d = .error f d' := by
  induction t generalizing d with
  | operand c =>
    rw [operands, runAll] at h
    rcases bind_eq_error_iff.mp h with h | ⟨v, u, -, h⟩
    · exact h
    · cases h
  | join op hop left right ihl ihr =>
    subst hop
    rw [operands] at h htexts
    rw [run_join]
    cases hleft : runAll s env left.operands d with
    | error f' u =>
      rw [runAll_append, bind_of_error hleft] at h
      cases h
      exact bind_of_error (ihl hleft htexts.left)
    | ok vs u =>
      obtain ⟨v, inside, -, -, hproduces⟩ :=
        left.exists_produces hleft (htexts.left _ (List.prefix_refl _) vs u hleft)
      rw [bind_of_ok hproduces.run]
      rw [runAll_append_of_ok hleft] at h
      rcases bind_eq_error_iff.mp h with h | ⟨ws, u', -, h⟩
      · exact bind_of_error (ihr h (htexts.right hleft))
      · cases h

private theorem run_congr_operands {t u : Bracketing (· = "&")} (hu : u.operands = t.operands)
    (ht : 1 < t.operands.length) (htexts : HaveTexts s env t.operands d) :
    Code.run s env u.code d = Code.run s env t.code d := by
  cases h : runAll s env t.operands d with
  | error f d' => rw [t.run_of_stop h htexts, u.run_of_stop (hu ▸ h) (hu ▸ htexts)]
  | ok vs d' =>
    have hvs := htexts _ (List.prefix_refl _) vs d' h
    obtain ⟨v, inside, hv, -, hproduces⟩ := t.exists_produces h hvs
    obtain ⟨w, inside', hw, -, hproduces'⟩ := u.exists_produces (hu ▸ h) hvs
    have hvalues := (hv ht).symm.trans (hw (hu ▸ ht))
    cases hvalues
    rw [hproduces.run, hproduces'.run]

private theorem one_lt_length_operands (left right : Bracketing (· = "&")) :
    1 < (join "&" rfl left right : Bracketing (· = "&")).operands.length := by
  have hleft := List.length_pos_iff.mpr left.operands_ne_nil
  have hright := List.length_pos_iff.mpr right.operands_ne_nil
  rw [operands, List.length_append]
  omega

end Bracketing

/-- A formula that joins operands by concatenations, at least one of them, runs each operand once,
from the left. If none of them stops the run and all of their values have texts, it comes to the
first error among these values, or else to the text of all of them. Its brackets do not matter. If
no value is an error but one has no text, then it is stopped, wherever its brackets are. -/
theorem run_concatenation (left right : Bracketing (· = "&")) :
    let t : Bracketing (· = "&") := .join "&" rfl left right
    (∀ (s : Setting) (env : Scope) (d d' : Draws) (vs : List Value),
      runAll s env t.operands d = .ok vs d' → (∀ v ∈ vs, ¬v.IsLong) →
        ∃ v, Value.joinAll vs = .ok v ∧ run s env t.code d = .ok v d' ∧
          ∃ inside all, Visits s env t.operands d vs inside d' ∧
            record s env t.code ⟨d, []⟩ = .ok v ⟨d', all⟩ ∧
            inside.Sublist all ∧ all.length + 1 = inside.length + t.operands.length) ∧
      (∀ (s : Setting) (env : Scope) (d d' : Draws) (vs : List Value),
        runAll s env t.operands d = .ok vs d' → Value.firstError? vs = none →
          (∃ v ∈ vs, v.IsLong) → ∃ u, run s env t.code d = .error (.trap .tooManyDigits) u) ∧
      ∀ u : Bracketing (· = "&"), u.operands = t.operands →
        ∀ (s : Setting) (env : Scope) (d : Draws), HaveTexts s env t.operands d →
          run s env u.code d = run s env t.code d := by
  intro t
  have ht := Bracketing.one_lt_length_operands left right
  refine ⟨?_, ?_, ?_⟩
  · intro s env d d' vs h hvs
    obtain ⟨v, inside, hjoin, hvisits, hproduces⟩ := t.exists_produces h hvs
    refine ⟨v, hjoin ht, hproduces.run, inside, ?_⟩
    obtain ⟨all, hrecord, hsub, hlength⟩ := hproduces
    exact ⟨all, hvisits, hrecord [], hsub, hlength⟩
  · intro s env d d' vs h hnone hlong
    obtain ⟨inside, hvisits⟩ := exists_visits h
    rcases t.produces_or_stops hvisits (.inl hnone) with ⟨v, -, hjoin, -⟩ | ⟨-, hstop⟩
    · have herror := Value.joinAll_eq_error_iff.mpr ⟨rfl, hnone, hlong⟩
      cases herror.symm.trans (hjoin ht)
    · exact hstop
  · intro u hu s env d htexts
    exact Bracketing.run_congr_operands hu ht htexts

/-- Of two unknown names the one further left is the answer, after a random number was drawn. An
integer of 5001 digits has no text. -/
theorem run_concatenation_unknown :
    let a : Code := .constant (.list [.null, .bool true])
    let b : Code := .call .builtin "random" []
    let c : Code := .deferred (.variable "u")
    let e : Code := .deferred (.function "g")
    let n : Value := .int (10 ^ 5000 : Nat)
    let ab : Bracketing (· = "&") := .join "&" rfl (.operand a) (.operand b)
    let ce : Bracketing (· = "&") := .join "&" rfl (.operand c) (.operand e)
    let bce : Bracketing (· = "&") := .join "&" rfl (.operand b) ce
    let t : Bracketing (· = "&") := .join "&" rfl ab ce
    let u : Bracketing (· = "&") := .join "&" rfl (.operand a) bce
    let long : Bracketing (· = "&") := .join "&" rfl (.operand (.constant n)) (.operand a)
    let vs : List Value :=
      [.list [.null, .bool true], .float 0.5, .error (.variable "u"), .error (.function "g")]
    runAll (.bare "c") Table.empty t.operands (.cycle []) = .ok vs (Draws.cycle []).advance ∧
      (∀ v ∈ vs, ¬v.IsLong) ∧
      run (.bare "c") Table.empty t.code (.cycle []) =
        .ok (.error (.variable "u")) (Draws.cycle []).advance ∧
      u.operands = t.operands ∧ HaveTexts (.bare "c") Table.empty t.operands (.cycle []) ∧
      run (.bare "c") Table.empty u.code (.cycle []) =
        run (.bare "c") Table.empty t.code (.cycle []) ∧
      n.IsLong ∧ ∃ d, run (.bare "c") Table.empty long.code (.cycle []) =
        .error (.trap .tooManyDigits) d := by
  intro a b c e n ab ce bce t u long vs
  have hrun : runAll (.bare "c") Table.empty t.operands (.cycle []) =
      .ok vs (Draws.cycle []).advance := rfl
  have hvs : ∀ v ∈ vs, ¬v.IsLong := by
    intro v hv hlong
    obtain ⟨s, hs⟩ : ∃ s, v.toText = .ok s := by
      simp only [vs, List.mem_cons, List.not_mem_nil, or_false] at hv
      rcases hv with rfl | rfl | rfl | rfl <;> exact ⟨_, rfl⟩
    cases hs.symm.trans (Value.toText_of_isLong hlong)
  have htexts := haveTexts_of_runAll hrun hvs
  have hn : n.IsLong := Value.isLong_pow (by decide)
  clear_value n
  obtain ⟨houtcome, -, hcongr⟩ := run_concatenation ab ce
  obtain ⟨w, hw, hvalue, -⟩ := houtcome _ _ _ _ _ hrun hvs
  have hw' : Value.joinAll vs = .ok (.error (.variable "u")) := rfl
  cases hw.symm.trans hw'
  obtain ⟨-, hstops, -⟩ := run_concatenation (.operand (.constant n)) (.operand a)
  have hlong : runAll (.bare "c") Table.empty long.operands (.cycle []) =
      .ok [n, .list [.null, .bool true]] (.cycle []) := rfl
  have hnone : Value.firstError? [n, .list [.null, .bool true]] = none := by
    rw [Value.firstError?_eq_none_iff, List.forall_mem_cons]
    exact ⟨hn.isError, by simp [Value.isError]⟩
  exact ⟨hrun, hvs, hvalue, rfl, htexts, hcongr u rfl _ _ _ htexts, hn,
    hstops _ _ _ _ _ hlong hnone ⟨n, by simp, hn⟩⟩

/-- An integer of 5001 digits stops a chain of operands none of which stops or is an error, with as
many random numbers drawn as its brackets make it. -/
theorem concatenation_ne_of_long :
    let n : Value := .int (10 ^ 5000 : Nat)
    let a : Code := .constant n
    let b : Code := .constant (.int 1)
    let c : Code := .call .builtin "random" []
    let ab : Bracketing (· = "&") := .join "&" rfl (.operand a) (.operand b)
    let bc : Bracketing (· = "&") := .join "&" rfl (.operand b) (.operand c)
    let t : Bracketing (· = "&") := .join "&" rfl ab (.operand c)
    let u : Bracketing (· = "&") := .join "&" rfl (.operand a) bc
    u.operands = t.operands ∧
      runAll (.bare "c") Table.empty t.operands (.cycle []) =
        .ok [n, .int 1, .float 0.5] (Draws.cycle []).advance ∧
      (∀ v ∈ [n, .int 1, .float 0.5], v.isError = false) ∧
      run (.bare "c") Table.empty t.code (.cycle []) =
        .error (.trap .tooManyDigits) (.cycle []) ∧
      run (.bare "c") Table.empty u.code (.cycle []) =
        .error (.trap .tooManyDigits) (Draws.cycle []).advance := by
  intro n a b c ab bc t u
  have hn : n.IsLong := Value.isLong_pow (by decide)
  clear_value n
  have hjoin {w : Value} (hw : w.isError = false) :
      Value.joinAll [n, w] = .error .tooManyDigits := by
    have hnone : Value.firstError? [n, w] = none := by
      simp [Value.firstError?_eq_none_iff, hn.isError, hw]
    exact Value.joinAll_eq_error_iff.mpr ⟨rfl, hnone, n, by simp, hn⟩
  have hbc : run (.bare "c") Table.empty bc.code (.cycle []) =
      .ok (.text "10.5") (Draws.cycle []).advance := rfl
  have hproper : ∀ v ∈ [n, .int 1, .float 0.5], v.isError = false :=
    List.forall_mem_cons.mpr ⟨hn.isError, by simp [Value.isError]⟩
  refine ⟨rfl, rfl, hproper, ?_, ?_⟩
  · have hab : run (.bare "c") Table.empty ab.code (.cycle []) =
        .error (.trap .tooManyDigits) (.cycle []) := by
      rw [Bracketing.run_join]
      exact congrFun (congrArg (fun x => Run.lift (Fault.ofTrap x)) (hjoin rfl)) _
    rw [Bracketing.run_join, bind_of_error hab]
  · rw [Bracketing.run_join]
    change (run (.bare "c") Table.empty bc.code >>= fun w =>
      Run.lift (Fault.ofTrap (Value.joinAll [n, w]))) (.cycle []) = _
    rw [bind_of_ok hbc, hjoin rfl]
    rfl

end Code

end FormulaEngine

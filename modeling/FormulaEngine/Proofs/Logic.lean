import FormulaEngine.Proofs.Code
/-!
# Laws of the logical operators

A logical operator tests its first operand and runs the second one only if the test leaves the
result open. An error is never tested: it is the answer. Seen as runs, the operators obey the laws
of logic, with the same random numbers and the same faults on both sides: chains of one operator do
not depend on their brackets, and negation exchanges the two operators.
-/
namespace FormulaEngine

namespace Run

/-- Goes on with the truth value of a value. An error is the answer at once, and a value that cannot
be tested stops the run. -/
def test (v : Value) (k : Bool → Run Value) : Run Value :=
  if v.isError then pure v else lift (Fault.ofTrap v.truth) >>= k

theorem lift_inj {α : Type} {o o' : Except Fault α} {d d' : Draws} (h : lift o d = lift o' d') :
    o = o' ∧ d = d' := by
  cases o with
  | ok a =>
    cases o' with
    | ok b =>
      cases h
      exact ⟨rfl, rfl⟩
    | error f => cases h
  | error f =>
    cases o' with
    | ok b => cases h
    | error g =>
      cases h
      exact ⟨rfl, rfl⟩

variable {v : Value} {k k' : Bool → Run Value}

private theorem test_of_isError (h : v.isError = true) : test v k = pure v :=
  if_pos h

private theorem test_of_truth {t : Bool} (hv : v.isError = false) (ht : v.truth = .ok t) :
    test v k = k t := by
  rw [test, hv, ht]
  rfl

private theorem test_of_trap {t : Trap} (hv : v.isError = false) (ht : v.truth = .error t) :
    test v k = throw (.trap t) := by
  rw [test, hv, ht]
  rfl

@[simp] theorem test_bool (b : Bool) : test (.bool b) k = k b :=
  test_of_truth rfl rfl

private theorem test_congr (h : ∀ t, v.isError = false → v.truth = .ok t → k t = k' t) :
    test v k = test v k' := by
  cases hv : v.isError with
  | true => rw [test_of_isError hv, test_of_isError hv]
  | false =>
    cases ht : v.truth with
    | error t => rw [test_of_trap hv ht, test_of_trap hv ht]
    | ok t => rw [test_of_truth hv ht, test_of_truth hv ht, h t hv ht]

private theorem test_bind {f : Value → Run Value} (hf : ∀ w, w.isError = true → f w = pure w) :
    test v k >>= f = test v fun t => k t >>= f := by
  cases hv : v.isError with
  | true => rw [test_of_isError hv, test_of_isError hv, pure_bind, hf v hv]
  | false => rw [test, test, hv, if_neg Bool.false_ne_true, if_neg Bool.false_ne_true, bind_assoc]

/-- What a logical operator makes of the value of its first operand and of the run of the second. -/
def proceed (l : Logical) (v : Value) (rest : Run Value) : Run Value :=
  test v fun t => if t = l.deciding then pure v else rest

private theorem proceed_of_isError {l : Logical} (h : v.isError = true) (rest : Run Value) :
    proceed l v rest = pure v :=
  test_of_isError h

private theorem proceed_bind_proceed (l : Logical) (v : Value) (x y : Run Value) :
    (proceed l v x >>= fun w => proceed l w y) = proceed l v (x >>= fun w => proceed l w y) := by
  rw [proceed, test_bind fun w hw => proceed_of_isError hw y]
  apply test_congr
  intro t hv ht
  by_cases hdecides : t = l.deciding
  -- A value that decides comes out of the inner test unchanged, so it decides the outer one too.
  · rw [if_pos hdecides, if_pos hdecides, pure_bind, proceed, test_of_truth hv ht, if_pos hdecides]
  · rw [if_neg hdecides, if_neg hdecides]

end Run

namespace Code

variable {s : Setting} {env : Scope} {l : Logical} {op : String}

private theorem run_logical (h : Logical.ofSymbol? op = some l) (a b : Code) :
    run s env (.operation op [a, b]) = run s env a >>= fun v => Run.proceed l v (run s env b) :=
  run_of_logical h a b

/-- Runs operands of a logical operator from the left until one of them decides. -/
def runChain (s : Setting) (env : Scope) (l : Logical) : List Code → Run Value
  | [] => throw .missingOperand
  | [c] => run s env c
  | c :: d :: cs => run s env c >>= fun v => Run.proceed l v (runChain s env l (d :: cs))

private theorem runChain_cons {cs : List Code} (h : cs ≠ []) (c : Code) :
    runChain s env l (c :: cs) =
      run s env c >>= fun v => Run.proceed l v (runChain s env l cs) := by
  cases cs with
  | nil => exact absurd rfl h
  | cons d cs => rw [runChain]

/-- A chain may be split anywhere. Its first part acts as the first operand. -/
private theorem runChain_append {cs ds : List Code} (hcs : cs ≠ []) (hds : ds ≠ []) :
    runChain s env l (cs ++ ds) =
      runChain s env l cs >>= fun v => Run.proceed l v (runChain s env l ds) := by
  induction cs with
  | nil => exact absurd rfl hcs
  | cons c cs ih =>
    cases cs with
    | nil => exact runChain_cons hds c
    | cons d cs =>
      have hrest : runChain s env l (d :: (cs ++ ds)) = _ := ih (List.cons_ne_nil d cs)
      rw [List.cons_append, List.cons_append, runChain, runChain, hrest, bind_assoc]
      congr 1
      funext v
      rw [Run.proceed_bind_proceed]

/-- How operands of a logical operator, run from the left, come to an outcome and draw random
numbers on the way. No operand after the one that settles the outcome is run. -/
inductive Settles (s : Setting) (env : Scope) (l : Logical) :
    List Code → Draws → Except Fault Value → Draws → Prop
  /-- An operand that stops at a fault stops the chain. -/
  | stopped {c : Code} {cs : List Code} {d d' : Draws} {f : Fault}
      (h : run s env c d = .error f d') : Settles s env l (c :: cs) d (.error f) d'
  /-- The value of the last operand is the answer, whatever it is. -/
  | last {c : Code} {d d' : Draws} {v : Value} (h : run s env c d = .ok v d') :
      Settles s env l [c] d (.ok v) d'
  /-- An error is the answer. -/
  | error {c : Code} {cs : List Code} {d d' : Draws} {v : Value} (h : run s env c d = .ok v d')
      (hv : v.isError = true) : Settles s env l (c :: cs) d (.ok v) d'
  /-- A value that cannot be tested stops the chain, unless it is the last one. -/
  | trapped {c : Code} {cs : List Code} {d d' : Draws} {v : Value} {t : Trap} (hcs : cs ≠ [])
      (h : run s env c d = .ok v d') (hv : v.isError = false) (ht : v.truth = .error t) :
      Settles s env l (c :: cs) d (.error (.trap t)) d'
  /-- A value with the deciding truth value is the answer. -/
  | decided {c : Code} {cs : List Code} {d d' : Draws} {v : Value} (hcs : cs ≠ [])
      (h : run s env c d = .ok v d') (hv : v.isError = false) (ht : v.truth = .ok l.deciding) :
      Settles s env l (c :: cs) d (.ok v) d'
  /-- A value with the other truth value leaves the outcome to the operands that follow. -/
  | undecided {c : Code} {cs : List Code} {d d' d'' : Draws} {v : Value} {o : Except Fault Value}
      (h : run s env c d = .ok v d') (hv : v.isError = false) (ht : v.truth = .ok !l.deciding)
      (hrest : Settles s env l cs d' o d'') : Settles s env l (c :: cs) d o d''

private theorem Settles.ne_nil {cs : List Code} {d d' : Draws} {o : Except Fault Value}
    (h : Settles s env l cs d o d') : cs ≠ [] := by
  cases h <;> exact List.cons_ne_nil _ _

private theorem runChain_of_settles {cs : List Code} {d d' : Draws} {o : Except Fault Value}
    (h : Settles s env l cs d o d') : runChain s env l cs d = Run.lift o d' := by
  induction h with
  | @stopped c cs d d' f h =>
    cases cs with
    | nil => exact h
    | cons => exact bind_of_error h
  | last h => exact h
  | @error c cs d d' v h hv =>
    cases cs with
    | nil => exact h
    | cons =>
      rw [runChain, bind_of_ok h, Run.proceed_of_isError hv]
      rfl
  | trapped hcs h hv ht =>
    rw [runChain_cons hcs, bind_of_ok h, Run.proceed, Run.test_of_trap hv ht]
    rfl
  | decided hcs h hv ht =>
    rw [runChain_cons hcs, bind_of_ok h, Run.proceed, Run.test_of_truth hv ht, if_pos rfl]
    rfl
  | undecided h hv ht hrest ih =>
    rw [runChain_cons hrest.ne_nil, bind_of_ok h, Run.proceed, Run.test_of_truth hv ht,
      if_neg (by simp)]
    exact ih

private theorem exists_settles (s : Setting) (env : Scope) (l : Logical) {cs : List Code}
    (hcs : cs ≠ []) (d : Draws) : ∃ o d', Settles s env l cs d o d' := by
  induction cs generalizing d with
  | nil => exact absurd rfl hcs
  | cons c cs ih =>
    cases h : run s env c d with
    | error f d' => exact ⟨.error f, d', .stopped h⟩
    | ok v d' =>
      by_cases hlast : cs = []
      · subst hlast
        exact ⟨.ok v, d', .last h⟩
      cases hv : v.isError with
      | true => exact ⟨.ok v, d', .error h hv⟩
      | false =>
        cases ht : v.truth with
        | error t => exact ⟨.error (.trap t), d', .trapped hlast h hv ht⟩
        | ok t =>
          by_cases hdecides : t = l.deciding
          · exact ⟨.ok v, d', .decided hlast h hv (hdecides ▸ ht)⟩
          · obtain ⟨o, d'', hrest⟩ := ih hlast d'
            exact ⟨o, d'', .undecided h hv (Bool.eq_not_of_ne hdecides ▸ ht) hrest⟩

private theorem runChain_eq_lift_iff {cs : List Code} (hcs : cs ≠ []) {d d' : Draws}
    {o : Except Fault Value} :
    runChain s env l cs d = Run.lift o d' ↔ Settles s env l cs d o d' := by
  constructor
  · intro h
    obtain ⟨o', u, hsettles⟩ := exists_settles s env l hcs d
    rw [runChain_of_settles hsettles] at h
    obtain ⟨rfl, rfl⟩ := Run.lift_inj h
    exact hsettles
  · exact runChain_of_settles

/-- A way to put brackets around operands that are joined by operators with certain symbols. -/
inductive Bracketing (symbols : String → Prop) where
  | operand (c : Code)
  | join (op : String) (h : symbols op) (left right : Bracketing symbols)

namespace Bracketing

variable {symbols : String → Prop}

def operands : Bracketing symbols → List Code
  | .operand c => [c]
  | .join _ _ left right => left.operands ++ right.operands

def code : Bracketing symbols → Code
  | .operand c => c
  | .join op _ left right => .operation op [left.code, right.code]

theorem operands_ne_nil (t : Bracketing symbols) : t.operands ≠ [] := by
  induction t with
  | operand c => exact List.cons_ne_nil c []
  | join op h left right ihl ihr => exact List.append_ne_nil_of_left_ne_nil ihl _

private theorem run_code (t : Bracketing (Logical.ofSymbol? · = some l)) :
    run s env t.code = runChain s env l t.operands := by
  induction t with
  | operand c => rfl
  | join op h left right ihl ihr =>
    rw [code, run_logical h, ihl, ihr, operands,
      runChain_append left.operands_ne_nil right.operands_ne_nil]

end Bracketing

/-- Whether two codes do the same wherever they run: they come to the same value or are stopped by
the same fault, with the same random numbers. -/
def Equivalent (a b : Code) : Prop :=
  ∀ (s : Setting) (env : Scope), run s env a = run s env b

/-- A formula that joins operands by one logical operator, in either of its spellings, runs them
from the left and comes to the outcome that the first deciding one settles. Its brackets do not
matter. -/
theorem run_bracketing {l : Logical} (t : Bracketing (Logical.ofSymbol? · = some l)) :
    (∀ (s : Setting) (env : Scope) (d d' : Draws) (o : Except Fault Value),
      run s env t.code d = Run.lift o d' ↔ Settles s env l t.operands d o d') ∧
      ∀ u : Bracketing (Logical.ofSymbol? · = some l), u.operands = t.operands →
        Equivalent u.code t.code := by
  constructor
  · intro s env d d' o
    rw [t.run_code]
    exact runChain_eq_lift_iff t.operands_ne_nil
  · intro u hu s env
    rw [u.run_code, t.run_code, hu]

/-- An empty text decides a conjunction after one random number, so that the unknown name behind it
is never looked at. -/
theorem run_bracketing_text :
    let a : Code := .read .environment "x"
    let b : Code := .call .builtin "random" []
    let c : Code := .constant (.text "")
    let d : Code := .deferred (.variable "u")
    let env : Scope := Table.empty.insert "x" (.list [])
    let t : Bracketing (Logical.ofSymbol? · = some .and) :=
      .join "and" rfl (.join "&&" rfl (.join "and" rfl (.operand a) (.operand b)) (.operand c))
        (.operand d)
    let u : Bracketing (Logical.ofSymbol? · = some .and) :=
      .join "&&" rfl (.operand a) (.join "and" rfl (.operand b)
        (.join "and" rfl (.operand c) (.operand d)))
    Settles (.bare "c") env .and [a, b, c, d] (.cycle []) (.ok (.text ""))
        (Draws.cycle []).advance ∧
      u.operands = t.operands ∧ Equivalent u.code t.code := by
  intro a b c d env t u
  obtain ⟨hsettles, hequivalent⟩ := run_bracketing t
  have hrun : run (.bare "c") env t.code (.cycle []) =
      Run.lift (.ok (.text "")) (Draws.cycle []).advance := rfl
  exact ⟨(hsettles _ env _ _ _).mp hrun, rfl, hequivalent u rfl⟩

end Code

private theorem Value.exists_of_isError {v : Value} (h : v.isError = true) : ∃ e, v = .error e := by
  cases v with
  | error e => exact ⟨e, rfl⟩
  | _ => cases h

/-- The operator that negation makes of a logical one. -/
def Logical.dual : Logical → Logical
  | .and => .or
  | .or => .and

private theorem Logical.deciding_dual (l : Logical) : l.dual.deciding = !l.deciding := by
  cases l <;> rfl

namespace Run

/-- The negation of a value that a run has come to. -/
def negate (v : Value) : Run Value :=
  test v fun t => pure (.bool !t)

private theorem negate_of_isError {v : Value} (h : v.isError = true) : negate v = pure v :=
  test_of_isError h

private theorem lift_applyOperator_not {op : String} (h : UnaryOperator.ofSymbol? op = some .not)
    (v : Value) : lift (applyOperator op [v]) = negate v := by
  cases hv : v.isError with
  | true =>
    obtain ⟨e, rfl⟩ := Value.exists_of_isError hv
    exact (negate_of_isError hv).symm
  | false =>
    have happly : applyUnary op v = Fault.ofTrap (UnaryOperator.not.onValue v) := by
      unfold applyUnary
      split
      next => cases hv
      next => rw [h]
    rw [applyOperator, happly, UnaryOperator.onValue]
    cases ht : v.truth with
    | error t =>
      rw [negate, test_of_trap hv ht]
      rfl
    | ok t =>
      rw [negate, test_of_truth hv ht]
      rfl

private theorem proceed_bind_negate (l : Logical) (v : Value) (rest : Run Value) :
    proceed l v rest >>= negate = negate v >>= fun w => proceed l.dual w (rest >>= negate) := by
  rw [proceed, test_bind fun w hw => negate_of_isError hw, negate,
    test_bind fun w hw => proceed_of_isError hw _]
  apply test_congr
  intro t hv ht
  rw [pure_bind, proceed, test_bool, l.deciding_dual]
  by_cases hdecides : t = l.deciding
  · rw [if_pos hdecides, if_pos (congrArg not hdecides), pure_bind, negate, test_of_truth hv ht]
  · rw [if_neg hdecides, if_neg (mt Bool.not_inj hdecides)]

private theorem negate_bind_negate (v : Value) :
    negate v >>= negate = test v fun t => pure (.bool t) := by
  rw [negate, test_bind fun w hw => negate_of_isError hw]
  apply test_congr
  intro t _ _
  rw [pure_bind, negate, test_bool, Bool.not_not]

end Run

private theorem callNamed_boolean (v : Value) :
    callNamed .builtin "boolean" [v] = Run.test v fun t => pure (.bool t) := by
  cases hv : v.isError with
  | true =>
    obtain ⟨e, rfl⟩ := Value.exists_of_isError hv
    exact (Run.test_of_isError hv).symm
  | false =>
    have hargs : Value.firstError? [v] = none := by simp [Value.firstError?_eq_none_iff, hv]
    have hfunction : Library.builtin.function? "boolean" = some Builtin.boolean.callable := rfl
    rw [callNamed_of_function? hargs hfunction]
    funext d
    have hcall : (Builtin.boolean.callable.call [v] d) =
        (Fault.ofTrap (v.truth >>= fun t => pure (.bool t)), d) := rfl
    rw [Run.call, hcall]
    cases ht : v.truth with
    | error t =>
      rw [Run.test_of_trap hv ht]
      rfl
    | ok t =>
      rw [Run.test_of_truth hv ht]
      rfl

namespace Code

variable {s : Setting} {env : Scope} {l : Logical} {op op' neg neg' neg'' : String}

private theorem run_not (h : UnaryOperator.ofSymbol? neg = some .not) (a : Code) :
    run s env (.operation neg [a]) = run s env a >>= Run.negate := by
  rw [run_unary (Logical.ofSymbol?_of_unary h)]
  congr 1
  funext v
  exact Run.lift_applyOperator_not h v

private theorem run_boolean (a : Code) :
    run s env (.call .builtin "boolean" [a]) =
      run s env a >>= fun v => Run.test v fun t => pure (.bool t) := by
  rw [run]
  simp only [runAll, bind_assoc, pure_bind]
  congr 1
  funext v
  exact callNamed_boolean v

private theorem equivalent_not_logical (hop : Logical.ofSymbol? op = some l)
    (hop' : Logical.ofSymbol? op' = some l.dual) (hneg : UnaryOperator.ofSymbol? neg = some .not)
    (hneg' : UnaryOperator.ofSymbol? neg' = some .not)
    (hneg'' : UnaryOperator.ofSymbol? neg'' = some .not) (a b : Code) :
    Equivalent (.operation neg [.operation op [a, b]])
      (.operation op' [.operation neg' [a], .operation neg'' [b]]) := by
  intro s env
  rw [run_not hneg, run_logical hop, run_logical hop', run_not hneg', run_not hneg'', bind_assoc,
    bind_assoc]
  congr 1
  funext v
  exact Run.proceed_bind_negate l v (run s env b)

private theorem equivalent_not_not (hneg : UnaryOperator.ofSymbol? neg = some .not)
    (hneg' : UnaryOperator.ofSymbol? neg' = some .not) (a : Code) :
    Equivalent (.operation neg [.operation neg' [a]]) (.call .builtin "boolean" [a]) := by
  intro s env
  rw [run_not hneg, run_not hneg', run_boolean, bind_assoc]
  congr 1
  funext v
  exact Run.negate_bind_negate v

/-- Negation exchanges the two logical operators, and two negations are the truth value. Both sides
skip the same operands, carry the same errors and stop at the same value that cannot be tested, in
all spellings of the operators. -/
theorem equivalent_negation {conj disj : String} (hconj : Logical.ofSymbol? conj = some .and)
    (hdisj : Logical.ofSymbol? disj = some .or) (hneg : UnaryOperator.ofSymbol? neg = some .not)
    (hneg' : UnaryOperator.ofSymbol? neg' = some .not)
    (hneg'' : UnaryOperator.ofSymbol? neg'' = some .not) (a b : Code) :
    Equivalent (.operation neg [.operation conj [a, b]])
        (.operation disj [.operation neg' [a], .operation neg'' [b]]) ∧
      Equivalent (.operation neg [.operation disj [a, b]])
        (.operation conj [.operation neg' [a], .operation neg'' [b]]) ∧
      Equivalent (.operation neg [.operation neg' [a]]) (.call .builtin "boolean" [a]) :=
  ⟨equivalent_not_logical hconj hdisj hneg hneg' hneg'' a b,
    equivalent_not_logical hdisj hconj hneg hneg' hneg'' a b, equivalent_not_not hneg hneg' a⟩

/-- A drawn number that is not zero leaves a conjunction to the unknown name behind it, decides a
disjunction and is true. -/
theorem equivalent_negation_random :
    let a : Code := .call .builtin "random" []
    let e : FormulaError := FormulaError.variable "u"
    let b : Code := .deferred e
    let outcome (c : Code) := run (.bare "c") Table.empty c (.cycle [])
    outcome (.operation "or" [.operation "!" [a], .operation "not" [b]]) =
        .ok (.error e) (Draws.cycle []).advance ∧
      outcome (.operation "&&" [.operation "!" [a], .operation "not" [b]]) =
        .ok (.bool false) (Draws.cycle []).advance ∧
      outcome (.operation "not" [.operation "!" [a]]) =
        .ok (.bool true) (Draws.cycle []).advance := by
  intro a e b outcome
  have hconj : Logical.ofSymbol? "&&" = some .and := rfl
  have hdisj : Logical.ofSymbol? "or" = some .or := rfl
  have hneg : UnaryOperator.ofSymbol? "not" = some .not := rfl
  have hneg' : UnaryOperator.ofSymbol? "!" = some .not := rfl
  obtain ⟨hand, hor, hnot⟩ := equivalent_negation hconj hdisj hneg hneg' hneg a b
  simp only [outcome]
  rw [← hand, ← hor, hnot]
  exact ⟨rfl, rfl, rfl⟩

end Code

end FormulaEngine

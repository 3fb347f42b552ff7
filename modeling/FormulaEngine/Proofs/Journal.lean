import FormulaEngine.Context
import FormulaEngine.Proofs.Calls
import FormulaEngine.Proofs.ErrorFree
/-!
# The values inside a run

A run of code produces a value at every node that it reaches. In order of completion these values
tell whether the run answers an error: it answers the first one among them. So an error in the use
of a name is neither lost inside code nor replaced by another one, wherever it comes from.
-/
namespace FormulaEngine

/-- Random numbers, and the values of the nodes that are complete, in order of completion. -/
structure Journal where
  draws : Draws
  values : List Value

/-- A run that keeps a journal. What was recorded before a fault stays. -/
abbrev Recording := EStateM Fault Journal

namespace Recording

def lift {α : Type} : Except Fault α → Recording α
  | .ok a => fun j => .ok a j
  | .error f => fun j => .error f j

def ofRun {α : Type} (x : Run α) : Recording α := fun j =>
  match x j.draws with
  | .ok a d => .ok a { j with draws := d }
  | .error f d => .error f { j with draws := d }

def complete (v : Value) : Recording Value := fun j =>
  .ok v { j with values := j.values ++ [v] }

end Recording

namespace Code

open Recording

mutual

/-- Runs code like `run`, and records the value of each node as soon as it is complete. -/
def record (s : Setting) (env : Scope) : Code → Recording Value
  | .constant v => complete v
  | .read scope name => complete (readVariable s env scope name)
  | .call scope name args => do
    let vs ← recordAll s env args
    complete (← ofRun (callNamed (s.library scope) name vs))
  | .operation op operands =>
    match Logical.ofSymbol? op with
    | none => do
      let vs ← recordAll s env operands
      complete (← ofRun (Run.lift (applyOperator op vs)))
    | some l =>
      match operands with
      | [] => throw .missingOperand
      | first :: rest => do
        let v ← record s env first
        if v.isError then complete v
        else do
          let t ← ofRun (Run.lift (Fault.ofTrap v.truth))
          if t = l.deciding then complete v
          else
            match rest with
            | [] => throw .missingOperand
            | second :: _ => do complete (← record s env second)
  | .deferred e => complete (.error e)

def recordAll (s : Setting) (env : Scope) : List Code → Recording (List Value)
  | [] => pure []
  | c :: cs => do
    let v ← record s env c
    let vs ← recordAll s env cs
    return v :: vs

end

end Code

private theorem Value.isError_iff {v : Value} : v.isError = true ↔ v.error?.isSome := by
  cases v <;> simp [error?, isError]

private theorem Value.isSome_firstError?_iff {vs : List Value} :
    (firstError? vs).isSome ↔ ∃ v ∈ vs, v.isError = true := by
  simp only [firstError?, List.isSome_findSome?, List.any_eq_true, isError_iff]

theorem Value.firstError?_append (vs ws : List Value) :
    firstError? (vs ++ ws) = (firstError? vs).or (firstError? ws) := by
  simp [firstError?, List.findSome?_append]

private theorem Value.firstError?_eq_some_iff {vs : List Value} {e : FormulaError} :
    firstError? vs = some e ↔
      ∃ before after, vs = before ++ .error e :: after ∧ ∀ w ∈ before, w.isError = false := by
  simp only [firstError?, List.findSome?_eq_some_iff, error?_eq_some_iff, error?_eq_none_iff]
  constructor
  · rintro ⟨before, v, after, rfl, rfl, hbefore⟩
    exact ⟨before, after, rfl, hbefore⟩
  · rintro ⟨before, after, rfl, hbefore⟩
    exact ⟨before, _, after, rfl, rfl, hbefore⟩

namespace Recording

variable {α β : Type} {known : Option FormulaError} {err : α → Option FormulaError}
  {err' : β → Option FormulaError} {x : Recording α} {y : Run α} {f : α → Recording β}
  {g : α → Run β}

/-- Whether a recording comes to what a run comes to, with the same random numbers, and the error
that its answer stands for is the first one that was known before or is recorded. -/
def Follows (known : Option FormulaError) (err : α → Option FormulaError) (x : Recording α)
    (y : Run α) : Prop :=
  ∀ j : Journal, ∃ o d new, y j.draws = Run.lift o d ∧ x j = lift o ⟨d, j.values ++ new⟩ ∧
    ∀ a, o = .ok a → err a = known.or (Value.firstError? new)

private theorem follows_pure {a : α} (h : err a = known) : Follows known err (pure a) (pure a) := by
  intro j
  refine ⟨.ok a, j.draws, [], rfl, by rw [List.append_nil]; rfl, ?_⟩
  intro b hb
  cases hb
  rw [h, Value.firstError?_nil, Option.or_none]

private theorem follows_throw (e : Fault) : Follows known err (throw e) (throw e) := by
  intro j
  refine ⟨.error e, j.draws, [], rfl, by rw [List.append_nil]; rfl, ?_⟩
  intro b hb
  cases hb

private theorem follows_lift (o : Except Fault α) (h : ∀ a, o = .ok a → err a = known) :
    Follows known err (ofRun (Run.lift o)) (Run.lift o) := by
  intro j
  refine ⟨o, j.draws, [], rfl, ?_, ?_⟩
  · rw [List.append_nil]
    cases o <;> rfl
  · intro a ha
    rw [h a ha, Value.firstError?_nil, Option.or_none]

private theorem follows_node (y : Run Value)
    (h : ∀ v d d' e, y d = .ok v d' → known = some e → v = .error e) :
    Follows known Value.error? (ofRun y >>= complete) y := by
  intro j
  cases hy : y j.draws with
  | ok v d =>
    have hnode : ofRun y j = .ok v ⟨d, j.values⟩ := by rw [ofRun, hy]
    rw [bind_of_ok hnode]
    refine ⟨.ok v, d, [v], rfl, rfl, ?_⟩
    intro w hw
    cases hw
    rw [Value.firstError?_cons, Value.firstError?_nil, Option.or_none]
    cases hknown : known with
    | none => rfl
    | some e =>
      rw [h v _ d e hy hknown]
      rfl
  | error e d =>
    have hnode : ofRun y j = .error e ⟨d, j.values⟩ := by rw [ofRun, hy]
    rw [bind_of_error hnode]
    refine ⟨.error e, d, [], rfl, by rw [List.append_nil]; rfl, ?_⟩
    intro w hw
    cases hw

private theorem follows_complete {v : Value} (h : ∀ e, known = some e → v = .error e) :
    Follows known Value.error? (complete v) (pure v) := by
  change Follows known Value.error? (ofRun (pure v) >>= complete) (pure v)
  apply follows_node
  intro w d d' e hw he
  cases hw
  exact h e he

private theorem follows_fresh (v : Value) : Follows none Value.error? (complete v) (pure v) := by
  apply follows_complete
  intro e he
  cases he

private theorem Follows.bind (hx : Follows known err x y)
    (hf : ∀ a, Follows (err a) err' (f a) (g a)) : Follows known err' (x >>= f) (y >>= g) := by
  intro j
  obtain ⟨o, d, new, hy, hxj, hnew⟩ := hx j
  cases o with
  | ok a =>
    obtain ⟨o, d', new', hg, hfj, hnew'⟩ := hf a ⟨d, j.values ++ new⟩
    rw [bind_of_ok hxj, bind_of_ok hy, hg, hfj]
    refine ⟨o, d', new ++ new', rfl, by rw [List.append_assoc], ?_⟩
    intro b hb
    rw [hnew' b hb, hnew a rfl, Option.or_assoc, Value.firstError?_append]
  | error e =>
    rw [bind_of_error hxj, bind_of_error hy]
    refine ⟨.error e, d, new, rfl, rfl, ?_⟩
    intro b hb
    cases hb

private theorem Follows.after (h : Follows none err x y) (known : Option FormulaError) :
    Follows known (fun a => known.or (err a)) x y := by
  intro j
  obtain ⟨o, d, new, hy, hx, hnew⟩ := h j
  refine ⟨o, d, new, hy, hx, ?_⟩
  intro a ha
  simp only [hnew a ha, Option.none_or]

end Recording

namespace Code

open Recording

variable {s : Setting} {env : Scope}

private theorem recordAll_follows {cs : List Code}
    (ih : ∀ c ∈ cs, Follows none Value.error? (record s env c) (run s env c)) :
    Follows none Value.firstError? (recordAll s env cs) (runAll s env cs) := by
  induction cs with
  | nil =>
    rw [recordAll, runAll]
    exact follows_pure rfl
  | cons c cs ihs =>
    have htail := ihs fun x hx => ih x (by simp [hx])
    rw [recordAll, runAll]
    refine (ih c (by simp)).bind fun v => (htail.after v.error?).bind fun vs => follows_pure ?_
    exact Value.firstError?_cons v vs

/-- What a run comes to is what its recording comes to, and an error that it answers is the first
value among the recorded ones that is an error. -/
theorem record_follows (s : Setting) (env : Scope) (c : Code) :
    Follows none Value.error? (record s env c) (run s env c) := by
  induction c with
  | constant v =>
    rw [record, run]
    exact follows_fresh _
  | read scope name =>
    rw [record, run]
    exact follows_fresh _
  | call scope name args ih =>
    rw [record, run]
    refine (recordAll_follows ih).bind fun vs => follows_node _ ?_
    intro v d d' e hcall he
    rw [callNamed_of_firstError? he] at hcall
    cases hcall
    rfl
  | operation op operands ih =>
    cases hop : Logical.ofSymbol? op with
    | none =>
      rw [run_of_strict hop, record, hop]
      refine (recordAll_follows ih).bind fun vs => follows_node _ ?_
      intro v d d' e hv he
      exact applyOperator_of_firstError? he (Run.lift_eq_ok hv)
    | some l =>
      rw [run, record, hop]
      cases operands with
      | nil => exact follows_throw _
      | cons first rest =>
        refine (ih first (by simp)).bind fun v => ?_
        cases hv : v.isError with
        | true => exact follows_complete fun e he => Value.error?_eq_some_iff.mp he
        | false =>
          rw [Value.error?_eq_none_iff.mpr hv]
          refine (follows_lift _ fun _ _ => rfl).bind fun t => ?_
          by_cases ht : t = l.deciding
          · rw [if_pos ht, if_pos ht]
            exact follows_fresh _
          · rw [if_neg ht, if_neg ht]
            cases rest with
            | nil => exact follows_throw _
            | cons second rest =>
              dsimp only
              rw [← bind_pure (run s env second)]
              exact (ih second (by simp)).bind fun w =>
                follows_complete fun e he => Value.error?_eq_some_iff.mp he
  | deferred e =>
    rw [record, run]
    exact follows_fresh _

end Code

namespace Context

/-- The values that code produces when it runs in a context, at all nodes that the run reaches, in
order of completion. -/
def produced (r : Context) (code : Code) (env : Scope) : List Value :=
  match code.record r.setting env ⟨r.pass.draws, []⟩ with
  | .ok _ j => j.values
  | .error _ j => j.values

theorem record_eq (r : Context) (code : Code) (env : Scope) :
    code.record r.setting env ⟨r.pass.draws, []⟩ =
      Recording.lift (r.run code env).1 ⟨(r.run code env).2.pass.draws, r.produced code env⟩ := by
  obtain ⟨o, d, new, hrun, hrecord, -⟩ := code.record_follows r.setting env ⟨r.pass.draws, []⟩
  rw [produced, run_of_lift hrun, hrecord]
  cases o <;> rfl

private theorem error?_of_run {r r' : Context} {code : Code} {env : Scope} {v : Value}
    (h : r.run code env = (.ok v, r')) : v.error? = Value.firstError? (r.produced code env) := by
  obtain ⟨o, d, new, hrun, hrecord, herror⟩ := code.record_follows r.setting env ⟨r.pass.draws, []⟩
  rw [run_of_lift hrun] at h
  cases h
  rw [herror v rfl, produced, hrecord]
  rfl

/-- A run answers an error exactly if some node that it reaches produces one, and then the first one
that is produced. Only a client's function can make a run raise an error in the use of a name, and
to demand its value raises just the error that it answers or raises. -/
theorem run_firstError (r : Context) (code : Code) (env : Scope) :
    (∀ v r', r.run code env = (.ok v, r') →
      code.record r.setting env ⟨r.pass.draws, []⟩ = .ok v ⟨r'.pass.draws, r.produced code env⟩ ∧
        (v.isError = true ↔ ∃ w ∈ r.produced code env, w.isError = true) ∧
        ∀ k, v = .error k ↔ ∃ before after, r.produced code env = before ++ .error k :: after ∧
          ∀ w ∈ before, w.isError = false) ∧
      (∀ k, (r.run code env).1 = .error (.formula k) →
        r.setting.ClientRaises code.calls (.formula k)) ∧
      ∀ k, (r.demand code env).1 = .error (.formula k) ↔
        (r.run code env).1 = .ok (.error k) ∨ (r.run code env).1 = .error (.formula k) := by
  refine ⟨?_, ?_, ?_⟩
  · intro v r' h
    have hrecord := r.record_eq code env
    rw [h] at hrecord
    have herror := error?_of_run h
    refine ⟨hrecord, ?_, ?_⟩
    · rw [Value.isError_iff, herror, Value.isSome_firstError?_iff]
    · intro k
      rw [← Value.error?_eq_some_iff, herror, Value.firstError?_eq_some_iff]
  · intro k hk
    obtain ⟨o, d, hrun⟩ := exists_run_eq_lift r code env
    rw [run_of_lift hrun] at hk
    obtain rfl : o = .error (.formula k) := hk
    exact Code.clientRaises_of_run hrun
  · intro k
    rw [demand_fst]
    cases (r.run code env).1 with
    | ok v => cases v <;> simp [Except.bind, Value.demand]
    | error f => simp [Except.bind]

/-- A client's function answers an error of its own, after which the other operand is still run. -/
theorem run_firstError_client :
    let s := (Setting.bare "c").setFunction "f"
      (.function fun _ => .ok (.error (.general "n" none)))
    let r := Context.new s (.cycle [])
    let code : Code := .operation "+" [.call .client "f" [.constant (.int 1)],
      .operation "and" [.deferred (.function "g"), .constant .null]]
    let produced : List Value := [.int 1, .error (.general "n" none), .error (.function "g"),
      .error (.function "g"), .error (.general "n" none)]
    r.run code .empty = (.ok (.error (.general "n" none)), (r.run code .empty).2) ∧
      r.produced code .empty = produced ∧
      (∃ before after, produced = before ++ .error (.general "n" none) :: after ∧
        ∀ w ∈ before, w.isError = false) ∧
      (r.demand code .empty).1 = .error (.formula (.general "n" none)) := by
  intro s r code produced
  have h : r.run code .empty = (.ok (.error (.general "n" none)), (r.run code .empty).2) := rfl
  obtain ⟨hvalues, -, hdemand⟩ := run_firstError r code .empty
  exact ⟨h, rfl, ((hvalues _ _ h).2.2 _).mp rfl, (hdemand _).mpr (.inl rfl)⟩

end Context

end FormulaEngine

import FormulaEngine.Proofs.Calls
import FormulaEngine.Proofs.Immediate
import FormulaEngine.Proofs.Journal
import FormulaEngine.Proofs.Trap
/-!
# Soundness of compilation

What a compilation accepts is sound: neither a run of the code nor an immediate evaluation meets an
operator that is not known, a missing operand or a wrong number of arguments. All that can stop a
run is a client's function or a trap, and for each trap there is a reason among the calls of the
code and the values that the run has produced. Without logical operators, which may leave an operand
unevaluated, what an immediate evaluation can evaluate is accepted.
-/
namespace FormulaEngine

/-- Where a fault of a run can come from, by the functions that the code calls and the values that
the run has produced. -/
inductive Fault.Origin (s : Setting) (calls : List (FunctionScope × String))
    (values : List Value) : Fault → Prop
  /-- A client's function gave up. -/
  | client {name : String} {f : List Value → Except Fault Value} {args : List Value} {e : Fault}
      (hcall : (.client, name) ∈ calls) (hf : s.functions.get? name = some (.function f))
      (hargs : args ⊆ values) (he : f args = .error e) : Origin s calls values e
  /-- An integer is beyond the range of doubles, or it has too many digits for a text. -/
  | integer {t : Trap} (ht : t.FromInteger values) : Origin s calls values (.trap t)
  /-- Coordinates of a distance on the globe, or their differences, are infinite. -/
  | angle {args : List Value} {t : Trap} (hcall : (.builtin, "greatCircleDistance") ∈ calls)
      (hargs : args ⊆ values) (ht : t.FromAngle args) : Origin s calls values (.trap t)

section

variable {s : Setting} {calls calls' : List (FunctionScope × String)} {values values' : List Value}

private theorem Trap.FromInteger.mono {t : Trap} (h : t.FromInteger values)
    (hvalues : values ⊆ values') : t.FromInteger values' := by
  cases h with
  | range hn hrange => exact .range (hvalues hn) hrange
  | digits hv hlong => exact .digits (hvalues hv) hlong

private theorem Fault.Origin.mono {e : Fault} (h : e.Origin s calls values)
    (hcalls : calls ⊆ calls') (hvalues : values ⊆ values') : e.Origin s calls' values' := by
  cases h with
  | client hcall hf hargs he => exact .client (hcalls hcall) hf (List.Subset.trans hargs hvalues) he
  | integer ht => exact .integer (ht.mono hvalues)
  | angle hcall hargs ht => exact .angle (hcalls hcall) (List.Subset.trans hargs hvalues) ht

end

private theorem Builtin.name_of_ofName? {name : String} {f : Builtin} (h : ofName? name = some f) :
    f.name = name := by
  simpa using List.find?_some h

private theorem Setting.origin_of_function? {s : Setting} {scope : FunctionScope} {name : String}
    {f : Callable} (hf : (s.library scope).function? name = some f) {args : List Value} {d : Draws}
    {e : Fault} (h : (f.call args d).1 = .error e) : e.Origin s [(scope, name)] args := by
  cases scope with
  | builtin =>
    obtain ⟨g, hg, rfl⟩ := Option.map_eq_some_iff.mp hf
    by_cases hdistance : g = .greatCircleDistance
    · subst hdistance
      obtain ⟨t, rfl, hinteger | hangle⟩ := Builtin.traps_greatCircleDistance args d e h
      · exact .integer hinteger
      · refine .angle ?_ (List.Subset.refl args) hangle
        rw [← Builtin.name_of_ofName? hg]
        exact List.mem_singleton_self _
    · obtain ⟨t, rfl, ht⟩ := Builtin.traps_callable hdistance args d e h
      exact .integer ht
  | math =>
    obtain ⟨g, -, rfl⟩ := Option.map_eq_some_iff.mp hf
    obtain ⟨t, rfl, ht⟩ := g.traps_callable args d e h
    exact .integer ht
  | client =>
    obtain ⟨entry, hentry, hcall⟩ := Option.bind_eq_some_iff.mp hf
    cases entry with
    | function g =>
      cases hcall
      exact .client (List.mem_singleton_self _) hentry (List.Subset.refl args) h
    | value v => cases hcall

private theorem Setting.origin_of_callNamed {s : Setting} {scope : FunctionScope} {name : String}
    {args : List Value} {d d' : Draws} {e : Fault}
    (h : callNamed (s.library scope) name args d = .error e d') :
    e.Origin s [(scope, name)] args := by
  cases hfirst : Value.firstError? args with
  | some k =>
    rw [callNamed_of_firstError? hfirst] at h
    cases h
  | none =>
    cases hfun : (s.library scope).function? name with
    | none =>
      rw [callNamed, hfirst, hfun] at h
      cases h
    | some f =>
      rw [callNamed_of_function? hfirst hfun] at h
      exact origin_of_function? hfun (Run.call_eq_error h)

section

variable {op : String} {v w : Value} {e : Fault}

private theorem applyUnary_eq_error {o : UnaryOperator} (ho : UnaryOperator.ofSymbol? op = some o)
    (h : applyUnary op v = .error e) : ∃ t, e = .trap t ∧ t.FromInteger [v] := by
  unfold applyUnary at h
  split at h
  · cases h
  · rw [ho] at h
    exact (o.traps_onValue (List.mem_singleton_self v)).ofTrap e h

private theorem applyBinary_eq_error {o : BinaryOperator}
    (ho : BinaryOperator.ofSymbol? op = some o)
    (h : applyBinary op v w = .error e) : ∃ t, e = .trap t ∧ t.FromInteger [v, w] := by
  unfold applyBinary at h
  split at h
  · cases h
  · rw [ho] at h
    have htraps : Traps (·.FromInteger [v, w]) (o.onValues v w) :=
      o.traps_onValues (by simp) (by simp)
    exact htraps.ofTrap e h

end

/-- Whether every operation of code has a known operator with the operands that it needs. -/
inductive Code.WellFormed : Code → Prop
  | constant (v : Value) : WellFormed (.constant v)
  | read (scope : VariableScope) (name : String) : WellFormed (.read scope name)
  | call (scope : FunctionScope) (name : String) {args : List Code}
      (hargs : ∀ a ∈ args, WellFormed a) : WellFormed (.call scope name args)
  | unary {op : String} {o : UnaryOperator} (ho : UnaryOperator.ofSymbol? op = some o) {a : Code}
      (ha : WellFormed a) : WellFormed (.operation op [a])
  | binary {op : String} {o : BinaryOperator} (ho : BinaryOperator.ofSymbol? op = some o)
      {a b : Code} (ha : WellFormed a) (hb : WellFormed b) : WellFormed (.operation op [a, b])
  | deferred (e : FormulaError) : WellFormed (.deferred e)

namespace Recording

variable {α β : Type} {s : Setting} {calls : List (FunctionScope × String)}
  {known known' : List Value} {out : α → List Value} {out' : β → List Value} {x : Recording α}
  {f : α → Recording β}

/-- Whether a recording, started with known values in its journal, keeps what is recorded, records
what its answer is made of, and stops only at faults that have an origin among what was recorded. -/
def Safe (s : Setting) (calls : List (FunctionScope × String)) (known : List Value)
    (out : α → List Value) (x : Recording α) : Prop :=
  ∀ j : Journal, known ⊆ j.values →
    match x j with
    | .ok a j' => j.values ⊆ j'.values ∧ out a ⊆ j'.values
    | .error e j' => j.values ⊆ j'.values ∧ e.Origin s calls j'.values

private theorem Safe.mono (h : Safe s calls known out x) (hknown : known ⊆ known') :
    Safe s calls known' out x :=
  fun j hj => h j (List.Subset.trans hknown hj)

private theorem safe_pure {a : α} (h : out a ⊆ known) : Safe s calls known out (pure a) :=
  fun j hj => ⟨List.Subset.refl j.values, List.Subset.trans h hj⟩

private theorem safe_complete (v : Value) : Safe s calls known (fun v => [v]) (complete v) :=
  fun _ _ => ⟨List.subset_append_left _ _, List.subset_append_right _ _⟩

private theorem safe_ofRun {y : Run α} (h : ∀ d d' e, y d = .error e d' → e.Origin s calls known) :
    Safe s calls known (fun _ => []) (ofRun y) := by
  intro j hj
  unfold ofRun
  cases hy : y j.draws with
  | ok a d => exact ⟨List.Subset.refl _, List.nil_subset _⟩
  | error e d => exact ⟨List.Subset.refl _, (h _ _ _ hy).mono (List.Subset.refl _) hj⟩

private theorem Safe.bind (hx : Safe s calls known out x)
    (hf : ∀ a, Safe s calls (known ++ out a) out' (f a)) : Safe s calls known out' (x >>= f) := by
  intro j hj
  have hfirst := hx j hj
  cases hxj : x j with
  | ok a j' =>
    rw [hxj] at hfirst
    obtain ⟨hgrow, hout⟩ := hfirst
    have hknown : known ++ out a ⊆ j'.values :=
      List.append_subset.mpr ⟨List.Subset.trans hj hgrow, hout⟩
    have hsecond := hf a j' hknown
    rw [bind_of_ok hxj]
    cases hfj : f a j' with
    | ok b j'' =>
      rw [hfj] at hsecond
      exact ⟨List.Subset.trans hgrow hsecond.1, hsecond.2⟩
    | error e j'' =>
      rw [hfj] at hsecond
      exact ⟨List.Subset.trans hgrow hsecond.1, hsecond.2⟩
  | error e j' =>
    rw [hxj] at hfirst
    rw [bind_of_error hxj]
    exact hfirst

end Recording

namespace Code

open Recording

variable {s : Setting} {env : Scope} {calls : List (FunctionScope × String)}

private theorem record_unary {op : String} (h : Logical.ofSymbol? op = none) (a : Code) :
    record s env (.operation op [a]) =
      record s env a >>= fun v => ofRun (Run.lift (applyOperator op [v])) >>= complete := by
  rw [record, h]
  simp only [recordAll, bind_assoc, pure_bind]

theorem record_binary_of_strict {op : String} (h : Logical.ofSymbol? op = none) (a b : Code) :
    record s env (.operation op [a, b]) =
      record s env a >>= fun v => record s env b >>= fun w =>
        ofRun (Run.lift (applyOperator op [v, w])) >>= complete := by
  rw [record, h]
  simp only [recordAll, bind_assoc, pure_bind]

private theorem record_of_logical {op : String} {l : Logical} (h : Logical.ofSymbol? op = some l)
    (a b : Code) :
    record s env (.operation op [a, b]) =
      record s env a >>= fun v =>
        if v.isError then complete v
        else ofRun (Run.lift (Fault.ofTrap v.truth)) >>= fun t =>
          if t = l.deciding then complete v else record s env b >>= complete := by
  rw [record, h]

private theorem recordAll_safe {cs : List Code}
    (ih : ∀ c ∈ cs, Safe s calls [] (fun v => [v]) (record s env c)) :
    Safe s calls [] id (recordAll s env cs) := by
  induction cs with
  | nil =>
    rw [recordAll]
    exact safe_pure (List.Subset.refl [])
  | cons c cs ihs =>
    have hhead := ih c (by simp)
    have htail := ihs fun x hx => ih x (by simp [hx])
    rw [recordAll]
    refine hhead.bind fun v => (htail.mono (List.nil_subset _)).bind fun vs => safe_pure ?_
    simp

/-- Whatever stops a run of well-formed code has an origin. -/
private theorem record_safe {c : Code} (h : c.WellFormed) (hcalls : c.calls ⊆ calls) :
    Safe s calls [] (fun v => [v]) (record s env c) := by
  induction h with
  | constant v =>
    rw [record]
    exact safe_complete v
  | read scope name =>
    rw [record]
    exact safe_complete _
  | @call scope name args hargs ih =>
    obtain ⟨hargcalls, hcall⟩ := List.append_subset.mp hcalls
    have hall := recordAll_safe fun a ha =>
      ih a ha fun x hx => hargcalls (mem_callsAll.mpr ⟨a, ha, hx⟩)
    rw [record]
    refine hall.bind fun vs => (safe_ofRun ?_).bind fun v => safe_complete v
    intro d d' e hrun
    exact (Setting.origin_of_callNamed hrun).mono hcall (List.Subset.refl vs)
  | @unary op o ho a ha ih =>
    have hoperand := ih fun x hx => hcalls (mem_callsAll.mpr ⟨a, by simp, hx⟩)
    rw [record_unary (Logical.ofSymbol?_of_unary ho)]
    refine hoperand.bind fun v => (safe_ofRun ?_).bind fun w => safe_complete w
    intro d d' e hrun
    obtain ⟨t, rfl, ht⟩ := applyUnary_eq_error ho (Run.lift_eq_error hrun)
    exact .integer ht
  | @binary op o ho a b ha hb iha ihb =>
    have hleft := iha fun x hx => hcalls (mem_callsAll.mpr ⟨a, by simp, hx⟩)
    have hright := ihb fun x hx => hcalls (mem_callsAll.mpr ⟨b, by simp, hx⟩)
    cases hop : Logical.ofSymbol? op with
    | none =>
      rw [record_binary_of_strict hop]
      refine hleft.bind fun v => (hright.mono (List.nil_subset _)).bind fun w =>
        (safe_ofRun ?_).bind fun z => safe_complete z
      intro d d' e hrun
      obtain ⟨t, rfl, ht⟩ := applyBinary_eq_error ho (Run.lift_eq_error hrun)
      exact .integer ht
    | some l =>
      rw [record_of_logical hop]
      refine hleft.bind fun v => ?_
      split
      · exact safe_complete v
      · refine (safe_ofRun ?_).bind fun t => ?_
        · intro d d' e hrun
          obtain ⟨t, rfl, ht⟩ := (Value.traps_truth (List.mem_singleton_self v)).ofTrap e
            (Run.lift_eq_error hrun)
          exact .integer ht
        · split
          · exact safe_complete v
          · exact (hright.mono (List.nil_subset _)).bind fun w => safe_complete w
  | deferred e =>
    rw [record]
    exact safe_complete _

end Code

namespace Expression

variable {s : Setting}

private theorem wellFormed_variableCode (name : String) : (s.variableCode name).WellFormed := by
  unfold Setting.variableCode Walk.variableCode?
  cases constant? name with
  | some v => exact .constant v
  | none =>
    dsimp only
    split
    · exact .read _ _
    · split
      · exact .read _ _
      · exact .deferred _

private theorem wellFormed_code {e : Expression} (h : ∀ x ∈ e.nodes, s.nodeFault? x = none) :
    (e.code s).WellFormed := by
  induction e with
  | literal v => exact .constant v
  | identifier name => exact wellFormed_variableCode name
  | call name args ih =>
    obtain ⟨-, hargs⟩ := forall_nodes_call.mp h
    rw [code, codeAll_eq_map]
    unfold Setting.callCode
    split
    · exact .deferred _
    · apply Code.WellFormed.call
      intro a ha
      obtain ⟨x, hx, rfl⟩ := List.mem_map.mp ha
      exact ih x hx (hargs x hx)
  | unary op x ih =>
    obtain ⟨hop, hx⟩ := forall_nodes_unary.mp h
    obtain ⟨o, ho⟩ := Setting.nodeFault?_unary_eq_none_iff.mp hop
    exact .unary ho (ih hx)
  | binary op l r ihl ihr =>
    obtain ⟨hop, hl, hr⟩ := forall_nodes_binary.mp h
    obtain ⟨o, ho⟩ := Setting.nodeFault?_binary_eq_none_iff.mp hop
    exact .binary ho (ihl hl) (ihr hr)
  | foreign v => exact .constant v

end Expression

/-- What can still stop an immediate evaluation of an expression that a compilation accepts: a name
that has no meaning, a client's function that the expression calls, or a trap. -/
inductive Setting.LateFault (s : Setting) (env : Scope) (e : Expression) : Fault → Prop
  | variable {name : String} (h : Walk.variableValue? s env name = none) :
      LateFault s env e (.formula (.variable name))
  | function {name : String} (h : s.resolve? name = none) :
      LateFault s env e (.formula (.function name))
  | client {name : String} {es : List Expression} {f : List Value → Except Fault Value}
      {args : List Value} {fault : Fault} (hcall : .call name es ∈ e.nodes)
      (hf : s.functions.get? name = some (.function f)) (h : f args = .error fault) :
      LateFault s env e fault
  | trap (t : Trap) : LateFault s env e (.trap t)

namespace Walk

variable {s : Setting} {env : Scope} {e₀ e : Expression}

private theorem trap_of_decides {o : BinaryOperator} {v : Value} {e : Fault}
    (h : decides o v = .error e) : ∃ t, e = .trap t := by
  cases o with
  | logical l =>
    cases ht : v.truth with
    | ok b =>
      rw [decides, ht] at h
      cases h
    | error t =>
      rw [decides, ht] at h
      cases h
      exact ⟨t, rfl⟩
  | _ => cases h

theorem length_of_evaluateAll {es : List Expression} {vs : List Value} {p q : Pass}
    (h : evaluateAll s env es p = .ok vs q) : vs.length = es.length := by
  induction es generalizing vs p with
  | nil =>
    cases h
    rfl
  | cons e es ih =>
    rw [evaluateAll] at h
    obtain ⟨v, r, -, h⟩ := bind_eq_ok_iff.mp h
    obtain ⟨ws, r', hws, h⟩ := bind_eq_ok_iff.mp h
    cases h
    simp [ih hws]

private theorem evaluate_of_evaluateAll {es : List Expression} {vs : List Value} {p q : Pass}
    (h : evaluateAll s env es p = .ok vs q) :
    ∀ e ∈ es, ∃ v r r', evaluate s env e r = .ok v r' := by
  induction es generalizing vs p q with
  | nil => simp
  | cons e es ih =>
    rw [evaluateAll] at h
    obtain ⟨v, r, he, h⟩ := bind_eq_ok_iff.mp h
    obtain ⟨ws, r', hws, -⟩ := bind_eq_ok_iff.mp h
    rw [List.forall_mem_cons]
    exact ⟨⟨v, p, r, he⟩, ih hws⟩

private theorem evaluate_of_evaluateAll_eq_error {es : List Expression} {f : Fault} {p q : Pass}
    (h : evaluateAll s env es p = .error f q) :
    ∃ e ∈ es, ∃ r r', evaluate s env e r = .error f r' := by
  induction es generalizing p with
  | nil => cases h
  | cons e es ih =>
    rw [evaluateAll] at h
    rcases bind_eq_error_iff.mp h with h | ⟨v, r, -, h⟩
    · exact ⟨e, by simp, p, q, h⟩
    · rcases bind_eq_error_iff.mp h with h | ⟨vs, r', -, h⟩
      · obtain ⟨x, hx, hrun⟩ := ih h
        exact ⟨x, by simp [hx], hrun⟩
      · cases h

private theorem inCall_eq_error {α : Type} {name : String} {w : Walk α} {f : Fault} {p q : Pass}
    (h : inCall s name w p = .error f q) : ∃ r r', w r = .error f r' := by
  unfold inCall at h
  split at h
  next => cases h
  next heq =>
    cases h
    exact ⟨_, _, heq⟩

private theorem lateFault_of_evaluateVariable {name : String} {f : Fault} {p q : Pass}
    (h : evaluateVariable s env name p = .error f q) : s.LateFault env e f := by
  unfold evaluateVariable at h
  cases hv : variableValue? s env name with
  | some v =>
    rw [hv] at h
    cases h
  | none =>
    rw [hv] at h
    cases h
    exact .variable hv

private theorem lateFault_of_evaluateFunction {name : String} {es : List Expression}
    {args : List Value} {f : Fault} {p q : Pass} (hcall : .call name es ∈ e.nodes)
    (harity : s.callFault? name args.length = none)
    (h : evaluateFunction s name args none p = .error f q) : s.LateFault env e f := by
  cases hf : s.resolve? name with
  | none =>
    rw [evaluateFunction_eq, hf] at h
    cases h
    exact .function hf
  | some r =>
    obtain ⟨hlib, hfun⟩ := Setting.function?_of_resolve? hf
    rw [hlib] at hfun
    rw [evaluateFunction_of_resolve? hf harity, ofRun] at h
    split at h
    next => cases h
    next heq =>
      cases h
      cases Setting.origin_of_function? hfun (Run.call_eq_error heq) with
      | client hmem hentry _ hraise =>
        obtain ⟨-, rfl⟩ := Prod.mk.inj (List.mem_singleton.mp hmem)
        exact .client hcall hentry hraise
      | integer => exact .trap _
      | angle => exact .trap _

private theorem lateFault_of_evaluate (hnodes : ∀ x ∈ e.nodes, s.nodeFault? x = none ∧ x ∈ e₀.nodes)
    {f : Fault} {p q : Pass} (h : evaluate s env e p = .error f q) : s.LateFault env e₀ f := by
  induction e generalizing p q with
  | literal v => cases h
  | identifier name => exact lateFault_of_evaluateVariable h
  | call name args ih =>
    obtain ⟨⟨hcall, hmem⟩, hargs⟩ := Expression.forall_nodes_call.mp hnodes
    rw [evaluate] at h
    rcases bind_eq_error_iff.mp h with h | ⟨vs, r, hvs, h⟩
    · obtain ⟨r, r', h⟩ := inCall_eq_error h
      obtain ⟨a, ha, r, r', h⟩ := evaluate_of_evaluateAll_eq_error h
      exact ih a ha (hargs a ha) h
    · obtain ⟨r', hall, -⟩ := inCall_eq_ok_iff.mp hvs
      apply lateFault_of_evaluateFunction hmem _ h
      rw [length_of_evaluateAll hall]
      exact hcall
  | unary op x ih =>
    obtain ⟨⟨hop, -⟩, hx⟩ := Expression.forall_nodes_unary.mp hnodes
    obtain ⟨o, ho⟩ := Setting.nodeFault?_unary_eq_none_iff.mp hop
    rw [evaluate, ho] at h
    rcases bind_eq_error_iff.mp h with h | ⟨v, r, -, h⟩
    · exact ih hx h
    · obtain ⟨t, rfl, -⟩ := applyUnary_eq_error ho (lift_eq_error h)
      exact .trap t
  | binary op l r ihl ihr =>
    obtain ⟨⟨hop, -⟩, hl, hr⟩ := Expression.forall_nodes_binary.mp hnodes
    obtain ⟨o, ho⟩ := Setting.nodeFault?_binary_eq_none_iff.mp hop
    rw [evaluate, ho] at h
    rcases bind_eq_error_iff.mp h with h | ⟨v, u, -, h⟩
    · exact ihl hl h
    · rcases bind_eq_error_iff.mp h with h | ⟨b, u', -, h⟩
      · obtain ⟨t, rfl⟩ := trap_of_decides (lift_eq_error h)
        exact .trap t
      · split at h
        · cases h
        · rcases bind_eq_error_iff.mp h with h | ⟨w, u'', -, h⟩
          · exact ihr hr h
          · obtain ⟨t, rfl, -⟩ := applyBinary_eq_error ho (lift_eq_error h)
            exact .trap t
  | foreign v => simp [Expression.nodes, Setting.nodeFault?] at hnodes

private theorem callFault?_of_evaluateFunction {name : String} {args : List Value} {v : Value}
    {p q : Pass} (h : evaluateFunction s name args none p = .ok v q) :
    s.callFault? name args.length = none := by
  rw [evaluateFunction_eq] at h
  unfold Setting.callFault?
  cases hf : s.resolve? name with
  | none => rfl
  | some r =>
    obtain ⟨lib, g⟩ := r
    rw [hf] at h
    dsimp only at h ⊢
    cases hfault : s.argumentFault? lib name args.length with
    | none => rfl
    | some e =>
      rw [hfault] at h
      cases h

private theorem nodeFault?_of_evaluate {e : Expression}
    (hstrict : ∀ x ∈ e.nodes, x.isLogical = false) {v : Value} {p q : Pass}
    (h : evaluate s env e p = .ok v q) : ∀ x ∈ e.nodes, s.nodeFault? x = none := by
  induction e generalizing v p q with
  | literal v => simp [Expression.nodes, Setting.nodeFault?]
  | identifier name => simp [Expression.nodes, Setting.nodeFault?]
  | call name args ih =>
    obtain ⟨-, hargs⟩ := Expression.forall_nodes_call.mp hstrict
    rw [evaluate] at h
    obtain ⟨vs, r, hvs, h⟩ := bind_eq_ok_iff.mp h
    obtain ⟨r', hall, -⟩ := inCall_eq_ok_iff.mp hvs
    rw [Expression.forall_nodes_call]
    constructor
    · rw [Setting.nodeFault?, ← length_of_evaluateAll hall]
      exact callFault?_of_evaluateFunction h
    · intro a ha
      obtain ⟨w, u, u', hw⟩ := evaluate_of_evaluateAll hall a ha
      exact ih a ha (hargs a ha) hw
  | unary op x ih =>
    obtain ⟨-, hx⟩ := Expression.forall_nodes_unary.mp hstrict
    rw [evaluate] at h
    cases ho : UnaryOperator.ofSymbol? op with
    | none =>
      rw [ho] at h
      cases h
    | some o =>
      rw [ho] at h
      obtain ⟨w, u, hw, -⟩ := bind_eq_ok_iff.mp h
      rw [Expression.forall_nodes_unary]
      exact ⟨Setting.nodeFault?_unary_eq_none_iff.mpr ⟨o, ho⟩, ih hx hw⟩
  | binary op l r ihl ihr =>
    obtain ⟨hlogical, hl, hr⟩ := Expression.forall_nodes_binary.mp hstrict
    have hop : Logical.ofSymbol? op = none := by simpa [Expression.isLogical] using hlogical
    rw [evaluate] at h
    cases ho : BinaryOperator.ofSymbol? op with
    | none =>
      rw [ho] at h
      cases h
    | some o =>
      rw [ho] at h
      obtain ⟨w, u, hw, h⟩ := bind_eq_ok_iff.mp h
      rw [decides_of_strict hop ho, lift_ok, pure_bind] at h
      obtain ⟨z, u', hz, -⟩ := bind_eq_ok_iff.mp h
      rw [Expression.forall_nodes_binary]
      exact ⟨Setting.nodeFault?_binary_eq_none_iff.mpr ⟨o, ho⟩, ihl hl hw, ihr hr hz⟩
  | foreign v => cases h

end Walk

/-- A value with an integer of too many digits is no error, but the text of it is stopped. -/
theorem Code.run_string_of_isLong {v : Value} (h : v.IsLong) (s : Setting) (env : Scope)
    (d : Draws) :
    run s env (.call .builtin "string" [.constant v]) d = .error (.trap .tooManyDigits) d := by
  have hargs : Value.firstError? [v] = none := by simp [Value.firstError?_eq_none_iff, h.isError]
  have hfunction : Library.builtin.function? "string" = some Builtin.string.callable := rfl
  have hcall : Builtin.string.callable.call [v] d =
      (Fault.ofTrap (v.toText >>= fun s => pure (.text s)), d) := rfl
  rw [Value.toText_of_isLong h] at hcall
  change callNamed Library.builtin "string" [v] d = _
  rw [callNamed_of_function? hargs hfunction, Run.call, hcall]
  rfl

namespace Context

variable {c c' : Context} {e : Expression} {code : Code} {env : Scope} {f : Fault}

private theorem origin_of_run (h : c.compile e = (.ok code, c')) {r : Context}
    (hrun : (r.run code env).1 = .error f) :
    f.Origin r.setting code.calls (r.produced code env) := by
  obtain ⟨hfaults, rfl, -⟩ := compile_eq_ok_iff.mp h
  have hsafe : Recording.Safe r.setting (e.code c.setting).calls [] (fun v => [v])
      ((e.code c.setting).record r.setting env) :=
    Code.record_safe (Expression.wellFormed_code hfaults) (List.Subset.refl _)
  have hstart := hsafe ⟨r.pass.draws, []⟩ (List.Subset.refl [])
  rw [record_eq, hrun] at hstart
  exact hstart.2

private theorem lateFault_of_evaluate (h : c.compile e = (.ok code, c')) {d : Context}
    (hd : d.setting = c.setting) (hevaluate : (d.evaluate e env).1 = .error f) :
    c.setting.LateFault env e f := by
  obtain ⟨hfaults, -, -⟩ := compile_eq_ok_iff.mp h
  cases hwalk : Walk.evaluate d.setting env e { d.pass with found := [] } with
  | ok v p =>
    rw [evaluate_of_ok hwalk] at hevaluate
    cases hevaluate
  | error f' p =>
    rw [evaluate_of_error hwalk] at hevaluate
    cases hevaluate
    rw [hd] at hwalk
    exact Walk.lateFault_of_evaluate (fun x hx => ⟨hfaults x hx, hx⟩) hwalk

private theorem exists_compile_of_evaluate {d : Context} (hd : d.setting = c.setting)
    (hstrict : ∀ x ∈ e.nodes, x.isLogical = false) {v : Value}
    (hevaluate : (d.evaluate e env).1 = .ok v) : ∃ code c', c.compile e = (.ok code, c') := by
  cases hwalk : Walk.evaluate d.setting env e { d.pass with found := [] } with
  | ok v' p =>
    rw [hd] at hwalk
    have hfaults := Walk.nodeFault?_of_evaluate hstrict hwalk
    exact ⟨_, _, compile_eq_ok_iff.mpr ⟨hfaults, rfl, rfl⟩⟩
  | error f p =>
    rw [evaluate_of_error hwalk] at hevaluate
    cases hevaluate

/-- A compilation accepts only expressions that cannot go wrong in their structure: whatever stops a
run of the code in any context has its origin in a client's function, an integer or an angle, and an
immediate evaluation in the same tables is stopped by nothing but a name without a meaning, a
client's function that it calls or a trap. Without logical operators, whatever an immediate
evaluation comes to a value of is accepted. -/
theorem origin_of_compile (c : Context) (e : Expression) :
    (∀ code c', c.compile e = (.ok code, c') →
      (∀ (r : Context) (env : Scope) (f : Fault), (r.run code env).1 = .error f →
        f.Origin r.setting code.calls (r.produced code env)) ∧
      ∀ (d : Context) (env : Scope) (f : Fault), d.setting = c.setting →
        (d.evaluate e env).1 = .error f → c.setting.LateFault env e f) ∧
    ∀ (d : Context) (env : Scope) (v : Value), d.setting = c.setting →
      (∀ x ∈ e.nodes, x.isLogical = false) → (d.evaluate e env).1 = .ok v →
        ∃ code c', c.compile e = (.ok code, c') := by
  refine ⟨?_, ?_⟩
  · intro code c' h
    refine ⟨?_, ?_⟩
    · intro r env f hrun
      exact origin_of_run h hrun
    · intro d env f hd hevaluate
      exact lateFault_of_evaluate h hd hevaluate
  · intro d env v hd hstrict hevaluate
    exact exists_compile_of_evaluate hd hstrict hevaluate

/-- A client's function gives up in the second operand of a logical operator. An integer of 5001
digits has no text. -/
theorem origin_of_compile_client :
    let s := (Setting.bare "c").setFunction "f" (.function fun _ => .error (.client "no"))
    let c := Context.new s (.cycle [])
    let e : Expression := .binary "and" (.literal (.int 1))
      (.unary "-" (.call "f" [.literal (.text "x")]))
    let code : Code := .operation "and" [.constant (.int 1),
      .operation "-" [.call .client "f" [.constant (.text "x")]]]
    let n : Value := .int (10 ^ 5000 : Nat)
    let long : Code := .call .builtin "string" [.constant n]
    let strict : Expression := .binary "&" (.literal (.int 1)) (.literal (.text "x"))
    c.compile e = (.ok code, (c.compile e).2) ∧
      (c.run code .empty).1 = .error (.client "no") ∧
      Fault.Origin s [(.client, "f")] [.int 1, .text "x"] (.client "no") ∧
      (c.evaluate e .empty).1 = .error (.client "no") ∧
      s.LateFault .empty e (.client "no") ∧
      (c.compile (.call "string" [.literal n])).1 = .ok long ∧
      (c.run long .empty).1 = .error (.trap .tooManyDigits) ∧
      Fault.Origin s long.calls (c.produced long .empty) (.trap .tooManyDigits) ∧
      (∀ x ∈ strict.nodes, x.isLogical = false) ∧
      (c.evaluate strict .empty).1 = .ok (.text "1x") ∧
      ∃ code c', c.compile strict = (.ok code, c') := by
  intro s c e code n long strict
  have h : c.compile e = (.ok code, (c.compile e).2) := rfl
  have hrun : (c.run code .empty).1 = .error (.client "no") := rfl
  have hwalk : (c.evaluate e .empty).1 = .error (.client "no") := rfl
  have hstrict : ∀ x ∈ strict.nodes, x.isLogical = false := by
    simp [strict, Expression.nodes, Expression.isLogical, Logical.ofSymbol?]
  have hvalue : (c.evaluate strict .empty).1 = .ok (.text "1x") := rfl
  have hn : n.IsLong := Value.isLong_pow (by decide)
  clear_value n
  have hlong : c.compile (.call "string" [.literal n]) = (.ok long, _) := rfl
  have hstop : (c.run long .empty).1 = .error (.trap .tooManyDigits) := by
    have hcode := Code.run_string_of_isLong hn c.setting .empty c.pass.draws
    rw [run_of_lift (o := .error (.trap .tooManyDigits)) hcode]
  obtain ⟨horigin, hlate⟩ := (origin_of_compile c e).1 code _ h
  obtain ⟨hlongOrigin, -⟩ := (origin_of_compile c _).1 long _ hlong
  exact ⟨h, hrun, horigin c .empty _ hrun, hwalk, hlate c .empty _ rfl hwalk, rfl, hstop,
    hlongOrigin c .empty _ hstop, hstrict, hvalue,
    (origin_of_compile c strict).2 c .empty _ rfl hstrict hvalue⟩

/-- Two finite latitudes can be so far apart that their difference is infinite. -/
theorem infiniteAngle_of_finite :
    let s := Setting.bare "c"
    let c := Context.new s (.cycle [])
    let x : Float := .ofBits 0x7FE0000000000000
    let args : List Value := [.float (-x), .int 0, .float x, .int 0]
    let e : Expression := .call "greatCircleDistance" (args.map .literal)
    let code : Code := .call .builtin "greatCircleDistance" (args.map .constant)
    c.compile e = (.ok code, (c.compile e).2) ∧
      (c.run code .empty).1 = .error (.trap .infiniteAngle) ∧
      (∀ name f, s.functions.get? name ≠ some (.function f)) ∧
      c.produced code .empty = args ∧
      ∀ v ∈ args, ∃ y, v.number = .ok y ∧ y.isFinite = true := by
  refine ⟨rfl, rfl, ?_, rfl, ?_⟩
  · intro name f h
    cases h
  · intro v hv
    simp only [List.mem_cons, List.not_mem_nil, or_false] at hv
    rcases hv with rfl | rfl | rfl | rfl
    · exact ⟨_, rfl, rfl⟩
    · exact ⟨_, rfl, rfl⟩
    · exact ⟨_, rfl, rfl⟩
    · exact ⟨_, rfl, rfl⟩

end Context

end FormulaEngine

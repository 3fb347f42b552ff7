import FormulaEngine.Proofs.Code
import FormulaEngine.Proofs.Compilation
/-!
# The calls of compiled code

Code names every function that a run of it can call, and the library in which the function is looked
up. Only a function of the client can make a run raise an error in the use of a name. Only the random
function of the built-in library draws a random number, and each place where compiled code calls it
has left a dependency on randomness.
-/
namespace FormulaEngine

private theorem Builtin.callable_ne_client (g : Builtin) (f : List Value → Except Fault Value) :
    g.callable ≠ .client f := by
  cases g <;> exact nofun

private theorem Callable.exists_client_of_call {f : Callable} {args : List Value} {d : Draws}
    {k : FormulaError} (h : (f.call args d).1 = .error (.formula k)) :
    ∃ g, f = .client g ∧ g args = .error (.formula k) := by
  cases f with
  | pure g =>
    obtain ⟨t, ht⟩ := Fault.eq_trap_of_ofTrap h
    cases ht
  | random g =>
    obtain ⟨t, ht⟩ := Fault.eq_trap_of_ofTrap h
    cases ht
  | client g => exact ⟨g, rfl, h⟩

private theorem Setting.exists_client_of_function? {s : Setting} {scope : FunctionScope}
    {name : String} {f : Callable} (hf : (s.library scope).function? name = some f)
    {args : List Value} {d : Draws} {k : FormulaError}
    (h : (f.call args d).1 = .error (.formula k)) :
    scope = .client ∧ ∃ g, s.functions.get? name = some (.function g) ∧
      g args = .error (.formula k) := by
  obtain ⟨g, rfl, hg⟩ := Callable.exists_client_of_call h
  cases scope with
  | builtin =>
    obtain ⟨b, -, hb⟩ := Option.map_eq_some_iff.mp hf
    exact absurd hb (b.callable_ne_client g)
  | math =>
    obtain ⟨m, -, hm⟩ := Option.map_eq_some_iff.mp hf
    cases hm
  | client =>
    obtain ⟨entry, hentry, hcall⟩ := Option.bind_eq_some_iff.mp hf
    cases entry with
    | function g' =>
      cases hcall
      exact ⟨rfl, g, hentry, hg⟩
    | value v => cases hcall

/-- Whether a function of the client among some calls can stop with a fault. -/
def Setting.ClientRaises (s : Setting) (calls : List (FunctionScope × String)) (e : Fault) : Prop :=
  ∃ name f args, (.client, name) ∈ calls ∧ s.functions.get? name = some (.function f) ∧
    f args = .error e

private theorem Setting.ClientRaises.mono {s : Setting}
    {calls calls' : List (FunctionScope × String)} {e : Fault} (h : s.ClientRaises calls e)
    (hcalls : calls ⊆ calls') : s.ClientRaises calls' e := by
  obtain ⟨name, f, args, hcall, hf⟩ := h
  exact ⟨name, f, args, hcalls hcall, hf⟩

namespace Code

mutual

/-- The functions that code calls and their scopes, with one entry for each place of a call. -/
def calls : Code → List (FunctionScope × String)
  | .constant _ => []
  | .read _ _ => []
  | .call scope name args => callsAll args ++ [(scope, name)]
  | .operation _ operands => callsAll operands
  | .deferred _ => []

def callsAll : List Code → List (FunctionScope × String)
  | [] => []
  | c :: cs => calls c ++ callsAll cs

end

theorem mem_callsAll {x : FunctionScope × String} {cs : List Code} :
    x ∈ callsAll cs ↔ ∃ c ∈ cs, x ∈ c.calls := by
  induction cs with
  | nil => simp [callsAll]
  | cons c cs ih => simp [callsAll, ih]

variable {s : Setting} {env : Scope} {k : FormulaError}

private theorem clientRaises_of_callNamed {scope : FunctionScope} {name : String}
    {args : List Value} {d d' : Draws}
    (h : callNamed (s.library scope) name args d = .error (.formula k) d') :
    s.ClientRaises [(scope, name)] (.formula k) := by
  cases hfirst : Value.firstError? args with
  | some e =>
    rw [callNamed_of_firstError? hfirst] at h
    cases h
  | none =>
    cases hf : (s.library scope).function? name with
    | none =>
      rw [callNamed, hfirst, hf] at h
      cases h
    | some g =>
      rw [callNamed_of_function? hfirst hf] at h
      obtain ⟨rfl, f, hf, hraise⟩ := Setting.exists_client_of_function? hf (Run.call_eq_error h)
      exact ⟨name, f, args, List.mem_singleton_self _, hf, hraise⟩

private theorem clientRaises_of_runAll {cs : List Code} {d d' : Draws}
    (ih : ∀ c ∈ cs, ∀ {u u'}, run s env c u = .error (.formula k) u' →
      s.ClientRaises c.calls (.formula k))
    (h : runAll s env cs d = .error (.formula k) d') :
    s.ClientRaises (callsAll cs) (.formula k) := by
  obtain ⟨c, hc, u, u', hrun⟩ := run_of_runAll_eq_error h
  exact (ih c hc hrun).mono fun x hx => mem_callsAll.mpr ⟨c, hc, hx⟩

/-- A run raises an error in the use of a name only where a function of the client raises it. Other
such errors are values. -/
theorem clientRaises_of_run {c : Code} {d d' : Draws}
    (h : run s env c d = .error (.formula k) d') : s.ClientRaises c.calls (.formula k) := by
  induction c generalizing d d' with
  | constant v => cases h
  | read scope name => cases h
  | call scope name args ih =>
    rw [run] at h
    rcases bind_eq_error_iff.mp h with h | ⟨vs, u, -, h⟩
    · exact (clientRaises_of_runAll ih h).mono (List.subset_append_left _ _)
    · exact (clientRaises_of_callNamed h).mono (List.subset_append_right _ _)
  | operation op operands ih =>
    cases hop : Logical.ofSymbol? op with
    | none =>
      rw [run_of_strict hop] at h
      rcases bind_eq_error_iff.mp h with h | ⟨vs, u, -, h⟩
      · exact clientRaises_of_runAll ih h
      · exact absurd rfl (applyOperator_ne_formula (Run.lift_eq_error h) k)
    | some l =>
      rw [run, hop] at h
      cases operands with
      | nil => cases h
      | cons a rest =>
        rcases bind_eq_error_iff.mp h with h | ⟨v, u, -, h⟩
        · exact (ih a (by simp) h).mono (List.subset_append_left _ _)
        · split at h
          · cases h
          · rcases bind_eq_error_iff.mp h with h | ⟨t, u', -, h⟩
            · obtain ⟨t, ht⟩ := Fault.eq_trap_of_ofTrap (Run.lift_eq_error h)
              cases ht
            · split at h
              · cases h
              · cases rest with
                | nil => cases h
                | cons b rest =>
                  exact (ih b (by simp) h).mono fun x hx => by simp [calls, callsAll, hx]
  | deferred e => cases h

def drawsIn (call : FunctionScope × String) : Bool :=
  call.1 = .builtin && Library.builtin.isRandom call.2

def randomCalls (c : Code) : Nat :=
  c.calls.countP drawsIn

def randomCallsAll (cs : List Code) : Nat :=
  (callsAll cs).countP drawsIn

theorem randomCallsAll_cons (c : Code) (cs : List Code) :
    randomCallsAll (c :: cs) = c.randomCalls + randomCallsAll cs := by
  rw [randomCallsAll, callsAll, List.countP_append]
  rfl

theorem randomCalls_call (scope : FunctionScope) (name : String) (args : List Code) :
    (call scope name args).randomCalls =
      randomCallsAll args + if drawsIn (scope, name) then 1 else 0 := by
  rw [randomCalls, calls, List.countP_append, List.countP_singleton]
  rfl

theorem randomCalls_operation (op : String) (operands : List Code) :
    (operation op operands).randomCalls = randomCallsAll operands := rfl

end Code

def Dependency.randomCount (ds : List Dependency) : Nat :=
  ds.countP (·.independent = .random)

namespace Setting

variable {s : Setting} {name : String} {lib : Library} {f : Callable}

theorem calls_variableCode (s : Setting) (name : String) : (s.variableCode name).calls = [] := by
  unfold variableCode Walk.variableCode?
  cases constant? name with
  | some v => rfl
  | none => dsimp only; split <;> [rfl; split] <;> rfl

theorem drawCount_of_function? {scope : FunctionScope}
    (h : (s.library scope).function? name = some f) :
    f.drawCount = if Code.drawsIn (scope, name) then 1 else 0 := by
  cases scope with
  | builtin =>
    obtain ⟨g, hg, rfl⟩ := Option.map_eq_some_iff.mp h
    simp [Code.drawsIn, Library.isRandom, Library.builtin, hg, g.drawCount_callable]
  | math =>
    obtain ⟨g, -, rfl⟩ := Option.map_eq_some_iff.mp h
    rfl
  | client =>
    obtain ⟨entry, -, hcall⟩ := Option.bind_eq_some_iff.mp h
    cases entry <;> cases hcall
    rfl

private theorem isRandom_of_drawsIn (h : s.resolve? name = some (lib, f))
    (hdraws : Code.drawsIn (lib.scope, name)) : lib.isRandom name := by
  obtain ⟨hscope, hrandom⟩ : lib.scope = .builtin ∧ Library.builtin.isRandom name := by
    simpa [Code.drawsIn] using hdraws
  have hlib := (function?_of_resolve? h).1
  rw [hscope] at hlib
  rwa [hlib]

theorem drawCount_le_of_resolve? (h : s.resolve? name = some (lib, f)) :
    f.drawCount ≤ if lib.isRandom name then 1 else 0 := by
  obtain ⟨hlib, hf⟩ := function?_of_resolve? h
  rw [hlib] at hf
  rw [drawCount_of_function? hf]
  split
  next hdraws => simp [isRandom_of_drawsIn h hdraws]
  next => exact Nat.zero_le _

end Setting

namespace Expression

variable {s : Setting}

private theorem randomCallsAll_codeAll_le {es : List Expression} {path : List String}
    (ih : ∀ e ∈ es, (e.code s).randomCalls ≤ Dependency.randomCount (e.dependencies s path)) :
    Code.randomCallsAll (codeAll s es) ≤ Dependency.randomCount (dependenciesAll s path es) := by
  induction es with
  | nil => exact Nat.le_refl 0
  | cons e es ihs =>
    have hhead := ih e (by simp)
    have htail := ihs fun x hx => ih x (by simp [hx])
    rw [codeAll, Code.randomCallsAll_cons, dependenciesAll, Dependency.randomCount,
      List.countP_append]
    exact Nat.add_le_add hhead htail

private theorem randomCalls_callCode_le (name : String) (args : List Code) (path : List String) :
    (s.callCode name args).randomCalls ≤
      Code.randomCallsAll args +
        Dependency.randomCount
          (if s.callsRandom name then [s.dependencyOn path .random] else []) := by
  unfold Setting.callCode
  cases h : s.resolve? name with
  | none => exact Nat.zero_le _
  | some r =>
    obtain ⟨lib, f⟩ := r
    dsimp only
    rw [Code.randomCalls_call]
    split
    next hdraws =>
      have hrandom : s.callsRandom name = true := by
        rw [Setting.callsRandom, h]
        exact Setting.isRandom_of_drawsIn h hdraws
      simp [hrandom, Dependency.randomCount, Setting.dependencyOn]
    next => exact Nat.le_add_right _ _

/-- Each place where compiled code calls a function that draws a random number left a dependency on
randomness. -/
theorem randomCalls_code_le (e : Expression) (path : List String) :
    (e.code s).randomCalls ≤ Dependency.randomCount (e.dependencies s path) := by
  induction e generalizing path with
  | literal v => exact Nat.zero_le _
  | identifier name =>
    rw [code, Code.randomCalls, s.calls_variableCode]
    exact Nat.zero_le _
  | call name args ih =>
    have hargs := randomCallsAll_codeAll_le fun a ha => ih a ha (path ++ [name])
    rw [code, dependencies, Dependency.randomCount, List.countP_append]
    exact Nat.le_trans (randomCalls_callCode_le name _ path) (Nat.add_le_add_right hargs _)
  | unary op x ih =>
    rw [code, Code.randomCalls_operation, Code.randomCallsAll_cons]
    exact ih path
  | binary op l r ihl ihr =>
    rw [code, Code.randomCalls_operation, Code.randomCallsAll_cons, Code.randomCallsAll_cons,
      dependencies, Dependency.randomCount, List.countP_append]
    exact Nat.add_le_add (ihl path) (ihr path)
  | foreign v => exact Nat.zero_le _

end Expression

end FormulaEngine

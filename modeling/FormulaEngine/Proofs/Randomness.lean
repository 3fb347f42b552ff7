import FormulaEngine.Proofs.Footprint
/-!
# Randomness

How many random numbers a formula draws, and what its outcome depends on. Compiled code draws at
most one number for each dependency on randomness that its compilation found, wherever it runs and
however it ends; without such a dependency the random numbers do not matter. An immediate evaluation
draws at most one number for each such dependency that it finds itself.
-/
namespace FormulaEngine

namespace Draws

/-- Whether two sources give the same numbers for a while. -/
def Alike (n : Nat) (d d' : Draws) : Prop :=
  ∀ i < n, d.source (d.taken + i) = d'.source (d'.taken + i)

variable {d d' : Draws} {m n : Nat}

private theorem Alike.mono (h : d.Alike n d') (hmn : m ≤ n) : d.Alike m d' :=
  fun i hi => h i (Nat.lt_of_lt_of_le hi hmn)

private theorem Alike.skip (h : d.Alike (m + n) d') : (d.skip m).Alike n (d'.skip m) := by
  intro i hi
  have hmi := h (m + i) (Nat.add_lt_add_left hi m)
  simpa [Draws.skip, Nat.add_assoc] using hmi

end Draws

private theorem Callable.call_congr (f : Callable) (args : List Value) {d d' : Draws}
    (h : d.Alike f.drawCount d') : (f.call args d).1 = (f.call args d').1 := by
  cases f with
  | pure g => rfl
  | random g =>
    have hnext : d.next = d'.next := h 0 (by simp [drawCount])
    simp [call, hnext]
  | client g => rfl

namespace Run

variable {α β : Type} {m n : Nat} {x : Run α} {f : α → Run β}

/-- Whether a run draws at most a number of random numbers, and comes to the same on all sources
that give these numbers alike. -/
def Reads (n : Nat) (x : Run α) : Prop :=
  ∀ d d' : Draws, d.Alike n d' →
    ∃ k ≤ n, ∃ o, x d = lift o (d.skip k) ∧ x d' = lift o (d'.skip k)

private theorem reads_lift (o : Except Fault α) : Reads 0 (lift o) :=
  fun _ _ _ => ⟨0, Nat.le_refl 0, o, rfl, rfl⟩

private theorem reads_pure (a : α) : Reads 0 (pure a) :=
  reads_lift (.ok a)

private theorem reads_throw (e : Fault) : Reads 0 (throw e : Run α) :=
  reads_lift (.error e)

theorem Reads.mono (h : Reads m x) (hmn : m ≤ n) : Reads n x := by
  intro d d' hd
  obtain ⟨k, hk, o, hx, hx'⟩ := h d d' (hd.mono hmn)
  exact ⟨k, Nat.le_trans hk hmn, o, hx, hx'⟩

private theorem Reads.bind (hx : Reads m x) (hf : ∀ a, Reads n (f a)) :
    Reads (m + n) (x >>= f) := by
  intro d d' hd
  obtain ⟨k, hk, o, hxd, hxd'⟩ := hx d d' (hd.mono (Nat.le_add_right m n))
  cases o with
  | ok a =>
    have hrest : (d.skip k).Alike n (d'.skip k) :=
      (hd.mono (Nat.add_le_add_right hk n)).skip
    obtain ⟨j, hj, o, hfd, hfd'⟩ := hf a _ _ hrest
    rw [bind_of_ok hxd, bind_of_ok hxd', hfd, hfd', Draws.skip_skip, Draws.skip_skip]
    exact ⟨k + j, Nat.add_le_add hk hj, o, rfl, rfl⟩
  | error e =>
    rw [bind_of_error hxd, bind_of_error hxd']
    exact ⟨k, Nat.le_trans hk (Nat.le_add_right m n), .error e, rfl, rfl⟩

private theorem reads_call (f : Callable) (args : List Value) :
    Reads f.drawCount (Run.call f args) := by
  intro d d' hd
  rw [call_eq_lift, call_eq_lift, f.call_congr args hd]
  exact ⟨_, Nat.le_refl _, _, rfl, rfl⟩

end Run

namespace Code

variable {s : Setting} {env : Scope}

private theorem reads_callNamed (scope : FunctionScope) (name : String) (args : List Value) :
    Run.Reads (if drawsIn (scope, name) then 1 else 0) (callNamed (s.library scope) name args) := by
  cases hfirst : Value.firstError? args with
  | some e =>
    rw [callNamed_of_firstError? hfirst]
    exact (Run.reads_pure _).mono (Nat.zero_le _)
  | none =>
    cases hf : (s.library scope).function? name with
    | some f =>
      rw [callNamed_of_function? hfirst hf, ← Setting.drawCount_of_function? hf]
      exact Run.reads_call f args
    | none =>
      rw [callNamed, hfirst, hf]
      exact (Run.reads_pure _).mono (Nat.zero_le _)

private theorem reads_runAll {cs : List Code}
    (ih : ∀ c ∈ cs, Run.Reads c.randomCalls (c.run s env)) :
    Run.Reads (randomCallsAll cs) (runAll s env cs) := by
  induction cs with
  | nil =>
    rw [runAll]
    exact Run.reads_pure []
  | cons c cs ihs =>
    have htail := ihs fun x hx => ih x (by simp [hx])
    rw [runAll, randomCallsAll_cons]
    exact (ih c (by simp)).bind fun v => htail.bind fun vs => Run.reads_pure _

/-- Code draws at most one random number for each place where it calls a function that draws one. -/
theorem reads_run (s : Setting) (env : Scope) (c : Code) :
    Run.Reads c.randomCalls (c.run s env) := by
  induction c with
  | constant v =>
    rw [run]
    exact Run.reads_pure v
  | read scope name =>
    rw [run]
    exact Run.reads_pure _
  | call scope name args ih =>
    rw [run, randomCalls_call]
    exact (reads_runAll ih).bind fun vs => reads_callNamed scope name vs
  | operation op operands ih =>
    rw [randomCalls_operation]
    cases hop : Logical.ofSymbol? op with
    | none =>
      rw [run_of_strict hop]
      exact (reads_runAll ih).bind fun vs => Run.reads_lift _
    | some l =>
      rw [run, hop]
      cases operands with
      | nil => exact Run.reads_throw _
      | cons first rest =>
        rw [randomCallsAll_cons]
        refine (ih first (by simp)).bind fun v => ?_
        split
        · exact (Run.reads_pure v).mono (Nat.zero_le _)
        · rw [← Nat.zero_add (randomCallsAll rest)]
          refine (Run.reads_lift _).bind fun t => ?_
          split
          · exact (Run.reads_pure v).mono (Nat.zero_le _)
          · cases rest with
            | nil => exact Run.reads_throw _
            | cons second rest =>
              rw [randomCallsAll_cons]
              exact (ih second (by simp)).mono (Nat.le_add_right _ _)
  | deferred e =>
    rw [run]
    exact Run.reads_pure _

end Code

private theorem Expression.randomCount_of_sublist {s : Setting} {calls : List OpenCall}
    {e : Expression} {ds : List Dependency} (h : ds.Sublist (e.randoms s calls)) :
    Dependency.randomCount ds = ds.length := by
  apply List.countP_eq_length.mpr
  intro d hd
  obtain ⟨calls', rfl⟩ := exists_of_mem_randoms (h.subset hd)
  rfl

namespace Context

/-- A run of compiled code, in any context and whatever it comes to, draws at most one random number
for each dependency on randomness that the compilation found. If it found none, no run draws, and
all runs in the same tables come to the same. An immediate evaluation draws at most one number for
each dependency on randomness that it finds. -/
theorem draws_le_randomCount {c c' : Context} {e : Expression} {code : Code}
    (h : c.compile e = (.ok code, c')) :
    (∀ (r : Context) (env : Scope), ∃ k ≤ Dependency.randomCount c'.pass.found,
      (r.run code env).2.pass.draws = r.pass.draws.skip k ∧
        (r.demand code env).2.pass.draws = r.pass.draws.skip k) ∧
      (Dependency.randomCount c'.pass.found = 0 → ∀ (r r' : Context) (env : Scope),
        r.setting = r'.setting →
          (r.run code env).1 = (r'.run code env).1 ∧
            (r.demand code env).1 = (r'.demand code env).1 ∧
            (r.run code env).2.pass.draws = r.pass.draws ∧
            (r.demand code env).2.pass.draws = r.pass.draws) ∧
      ∀ (d : Context) (env : Scope), ∃ k ≤ Dependency.randomCount (d.evaluate e env).2.evaluated,
        (d.evaluate e env).2.pass.draws = d.pass.draws.skip k := by
  obtain ⟨-, rfl, rfl⟩ := compile_eq_ok_iff.mp h
  have hreads (t : Setting) (env : Scope) :
      Run.Reads (Dependency.randomCount (e.dependencies c.setting []))
        ((e.code c.setting).run t env) :=
    (Code.reads_run t env _).mono (e.randomCalls_code_le [])
  refine ⟨?_, ?_, ?_⟩
  · intro r env
    obtain ⟨k, hk, o, hrun, -⟩ := hreads r.setting env r.pass.draws r.pass.draws fun _ _ => rfl
    rw [run_of_lift hrun, demand_of_lift hrun]
    exact ⟨k, hk, rfl, rfl⟩
  · intro hnone r r' env hsetting
    change Dependency.randomCount (e.dependencies c.setting []) = 0 at hnone
    have hquiet := hreads r.setting env
    rw [hnone] at hquiet
    obtain ⟨k, hk, o, hrun, hrun'⟩ := hquiet r.pass.draws r'.pass.draws (by simp [Draws.Alike])
    obtain rfl := Nat.le_zero.mp hk
    rw [hsetting] at hrun'
    rw [run_of_lift hrun, run_of_lift hrun', demand_of_lift hrun, demand_of_lift hrun']
    exact ⟨rfl, rfl, rfl, rfl⟩
  · intro d env
    obtain ⟨o, ds, k, hk, heq, hsub, -⟩ := exists_evaluate_eq d e env
    rw [← Expression.randomCount_of_sublist hsub] at hk
    rw [heq]
    exact ⟨k, hk, rfl⟩

/-- A short circuit saves a draw, a client's function that is said to be random draws none, and a
formula without randomness comes to the same on other random numbers. -/
theorem draws_le_randomCount_shortCircuit :
    let s := ((Setting.bare "c").setFunction "f" (.function fun _ => .ok (.bool true))).setSpec "f"
      ⟨1, none, .random, true, false, by simp⟩
    let c := Context.new s (.cycle [])
    let d := Context.new s (.cycle [0.25])
    let e : Expression := .binary "or" (.call "f" [.call "random" []]) (.call "random" [])
    let code : Code := .operation "or"
      [.call .client "f" [.call .builtin "random" []], .call .builtin "random" []]
    let quiet : Expression := .binary "&" (.identifier "u") (.call "string" [.literal (.int 1)])
    let quietCode : Code := .operation "&"
      [.deferred (.variable "u"), .call .builtin "string" [.constant (.int 1)]]
    c.compile e = (.ok code, (c.compile e).2) ∧
      Dependency.randomCount (c.compile e).2.pass.found = 3 ∧
      (c.run code .empty).2.pass.draws = c.pass.draws.skip 1 ∧
      (∃ k ≤ 3, (c.run code .empty).2.pass.draws = c.pass.draws.skip k) ∧
      c.compile quiet = (.ok quietCode, (c.compile quiet).2) ∧
      Dependency.randomCount (c.compile quiet).2.pass.found = 0 ∧ c.setting = d.setting ∧
      (c.run quietCode .empty).1 = (d.run quietCode .empty).1 := by
  intro s c d e code quiet quietCode
  have h : c.compile e = (.ok code, (c.compile e).2) := rfl
  have hcount : Dependency.randomCount (c.compile e).2.pass.found = 3 := rfl
  obtain ⟨k, hk, hrun, -⟩ := (draws_le_randomCount h).1 c .empty
  rw [hcount] at hk
  have hquiet : c.compile quiet = (.ok quietCode, (c.compile quiet).2) := rfl
  have hnone : Dependency.randomCount (c.compile quiet).2.pass.found = 0 := rfl
  have hsame := ((draws_le_randomCount hquiet).2.1 hnone c d .empty rfl).1
  exact ⟨h, hcount, rfl, ⟨k, hk, hrun⟩, hquiet, hnone, rfl, hsame⟩

end Context

end FormulaEngine

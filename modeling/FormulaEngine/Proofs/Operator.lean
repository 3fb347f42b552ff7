import FormulaEngine.Operator
/-!
# Operators and their symbols

Which family of operators a symbol belongs to, and what stops an operator: never an error in the use
of a name, for such errors are values.
-/
namespace FormulaEngine

theorem Logical.ofSymbol?_of_unary {op : String} {o : UnaryOperator}
    (h : UnaryOperator.ofSymbol? op = some o) : Logical.ofSymbol? op = none := by
  unfold UnaryOperator.ofSymbol? at h
  split at h
  · rfl
  · rfl
  · rfl
  · rfl
  · cases h

theorem BinaryOperator.ofSymbol?_of_logical {op : String} {l : Logical}
    (h : Logical.ofSymbol? op = some l) : ofSymbol? op = some (.logical l) := by
  rw [ofSymbol?, h]

theorem Fault.ofTrap_eq_ok {α : Type} {x : Except Trap α} {a : α} (h : Fault.ofTrap x = .ok a) :
    x = .ok a := by
  cases x with
  | ok b =>
    cases h
    rfl
  | error t => cases h

theorem Fault.eq_trap_of_ofTrap {α : Type} {x : Except Trap α} {f : Fault}
    (h : Fault.ofTrap x = .error f) : ∃ t, f = .trap t := by
  cases x with
  | ok a => cases h
  | error t =>
    cases h
    exact ⟨t, rfl⟩

private theorem applyUnary_ne_formula {op : String} {v : Value} {f : Fault}
    (h : applyUnary op v = .error f) (e : FormulaError) : f ≠ .formula e := by
  rintro rfl
  unfold applyUnary at h
  split at h
  · cases h
  · split at h
    · obtain ⟨t, ht⟩ := Fault.eq_trap_of_ofTrap h
      cases ht
    · cases h

private theorem applyBinary_ne_formula {op : String} {v w : Value} {f : Fault}
    (h : applyBinary op v w = .error f) (e : FormulaError) : f ≠ .formula e := by
  rintro rfl
  unfold applyBinary at h
  split at h
  · cases h
  · split at h
    · obtain ⟨t, ht⟩ := Fault.eq_trap_of_ofTrap h
      cases ht
    · split at h <;> cases h

theorem applyOperator_ne_formula {op : String} {vs : List Value} {f : Fault}
    (h : applyOperator op vs = .error f) (e : FormulaError) : f ≠ .formula e := by
  unfold applyOperator at h
  split at h
  · exact applyUnary_ne_formula h e
  · exact applyBinary_ne_formula h e
  · cases h
    rintro ⟨⟩

theorem applyBinary_of_open {op : String} {l : Logical} {v w : Value} {t : Bool}
    (hop : Logical.ofSymbol? op = some l) (hv : v.isError = false) (ht : v.truth = .ok t)
    (hopen : t ≠ l.deciding) (hw : w.isError = false) : applyBinary op v w = .ok w := by
  have hfirst : Value.firstError? [v, w] = none := by
    simp [Value.firstError?_eq_none_iff, hv, hw]
  rw [applyBinary, hfirst, BinaryOperator.ofSymbol?_of_logical hop]
  simp [BinaryOperator.onValues, Logical.onValues, ht, Except.map, hopen, Fault.ofTrap]

end FormulaEngine

import FormulaEngine.Value
import Mathlib.Algebra.Ring.Nat
/-!
# Texts of long integers

An integer is written as a text only up to a number of digits. Beyond it neither the integer nor a
list that holds it has a text, and no other value lacks one.
-/
namespace FormulaEngine

theorem Except.bind_eq_error_iff {ε α β : Type} {x : Except ε α} {f : α → Except ε β} {t : ε} :
    x >>= f = .error t ↔ x = .error t ∨ ∃ a, x = .ok a ∧ f a = .error t := by
  cases x <;> simp [bind, Except.bind]

namespace Value

private theorem textOfInt_eq_error_iff {n : Int} {t : Trap} :
    textOfInt n = .error t ↔ t = .tooManyDigits ∧ maxDigits < (Numeral.digits n.natAbs).length := by
  unfold textOfInt
  split
  next h => simp [Nat.not_lt.mpr h]
  next h => simp [Nat.lt_of_not_le h, eq_comm]

/-- Whether a value is an integer or a list that holds it, at any depth. -/
inductive Holds (n : Int) : Value → Prop
  | self : Holds n (.int n)
  | member {v : Value} {vs : List Value} (hv : v ∈ vs) (h : v.Holds n) : Holds n (.list vs)

/-- Whether a value is or holds an integer of more digits than a text may have. -/
def IsLong (v : Value) : Prop :=
  ∃ n, v.Holds n ∧ maxDigits < (Numeral.digits n.natAbs).length

private theorem isLong_int {n : Int} :
    (Value.int n).IsLong ↔ maxDigits < (Numeral.digits n.natAbs).length := by
  constructor
  · rintro ⟨_, ⟨⟩, h⟩
    exact h
  · intro h
    exact ⟨n, .self, h⟩

theorem isLong_pow {k : Nat} (h : maxDigits ≤ k) : (Value.int (10 ^ k : Nat)).IsLong := by
  have hpow : 10 ^ maxDigits ≤ 10 ^ k := Nat.pow_le_pow_right (by decide) h
  rw [isLong_int, Int.natAbs_natCast, ← Nat.not_le]
  intro hlength
  have hlt := (Nat.length_toDigits_le_iff (by decide) (by decide)).mp hlength
  exact Nat.not_le.mpr hlt hpow

private theorem isLong_list {vs : List Value} : (Value.list vs).IsLong ↔ ∃ v ∈ vs, v.IsLong := by
  constructor
  · rintro ⟨n, hholds, h⟩
    cases hholds with
    | member hv hn => exact ⟨_, hv, n, hn, h⟩
  · rintro ⟨v, hv, n, hn, h⟩
    exact ⟨n, .member hv hn, h⟩

private theorem not_isLong {v : Value} (hint : ∀ n, v ≠ .int n) (hlist : ∀ vs, v ≠ .list vs) :
    ¬v.IsLong := by
  rintro ⟨n, h, -⟩
  cases h with
  | self => exact hint _ rfl
  | member => exact hlist _ rfl

theorem IsLong.isError {v : Value} (h : v.IsLong) : v.isError = false := by
  cases v with
  | error e => exact absurd h (not_isLong nofun nofun)
  | _ => rfl

mutual

private theorem written_eq_error_iff {t : Trap} :
    ∀ v : Value, v.written = .error t ↔ t = .tooManyDigits ∧ v.IsLong
  | .int n => by rw [written, textOfInt_eq_error_iff, isLong_int]
  | .list vs => by
    have hall := writtenAll_eq_error_iff (t := t) vs
    rw [written, Except.bind_eq_error_iff, hall, isLong_list]
    simp [pure, Except.pure]
  | .null => by simp [written, not_isLong]
  | .bool b => by simp [written, not_isLong]
  | .float x => by simp [written, not_isLong]
  | .text s => by simp [written, not_isLong]
  | .date d => by simp [written, not_isLong]
  | .moment m => by simp [written, not_isLong]
  | .error e => by simp [written, not_isLong]

private theorem writtenAll_eq_error_iff {t : Trap} :
    ∀ vs : List Value, writtenAll vs = .error t ↔ t = .tooManyDigits ∧ ∃ v ∈ vs, v.IsLong
  | [] => by simp [writtenAll]
  | v :: vs => by
    have hhead := written_eq_error_iff (t := t) v
    have htail := writtenAll_eq_error_iff (t := t) vs
    simp only [writtenAll, Except.bind_eq_error_iff, hhead, htail, List.mem_cons, exists_eq_or_imp]
    constructor
    · rintro (⟨rfl, h⟩ | ⟨w, -, ⟨rfl, h⟩ | ⟨ws, -, h⟩⟩)
      · exact ⟨rfl, .inl h⟩
      · exact ⟨rfl, .inr h⟩
      · cases h
    · rintro ⟨rfl, h⟩
      by_cases hv : v.IsLong
      · exact .inl ⟨rfl, hv⟩
      · cases hw : v.written with
        | ok w => exact .inr ⟨w, rfl, .inl ⟨rfl, h.resolve_left hv⟩⟩
        | error u => exact absurd (written_eq_error_iff v |>.mp hw).2 hv

end

/-- A value has no text exactly if it is or holds an integer of too many digits. -/
theorem toText_eq_error_iff {v : Value} {t : Trap} :
    v.toText = .error t ↔ t = .tooManyDigits ∧ v.IsLong := by
  cases v with
  | int n => rw [toText, textOfInt_eq_error_iff, isLong_int]
  | list vs => rw [toText, written_eq_error_iff]
  | _ => simp [toText, not_isLong]

theorem exists_toText {v : Value} (h : ¬v.IsLong) : ∃ s, v.toText = .ok s := by
  cases hv : v.toText with
  | ok s => exact ⟨s, rfl⟩
  | error t => exact absurd (toText_eq_error_iff.mp hv).2 h

theorem toText_of_isLong {v : Value} (h : v.IsLong) : v.toText = .error .tooManyDigits :=
  toText_eq_error_iff.mpr ⟨rfl, h⟩

end Value

end FormulaEngine

import FormulaEngine.Function.Builtin
import FormulaEngine.Proofs.IntegerRange
/-!
# Months and dates of numbers

A number of seconds has a month exactly if it has a date, and the date begins with the month. The
exception are the integers beyond the range of doubles, which have no date: the search for their
month is stopped, since whether a number is finite is asked of its double.
-/
namespace FormulaEngine

private theorem Numeral.padded_two {m : Nat} (h : m ≤ 12) :
    (padded 2 m).length = 2 ∧ 'I' ∉ padded 2 m := by
  have hall : ∀ m ∈ List.range 13, (padded 2 m).length = 2 ∧ 'I' ∉ padded 2 m := by decide
  exact hall m (List.mem_range.mpr (Nat.lt_succ_of_le h))

namespace Date

variable (t : Date)

private theorem take_slashed : t.slashed.toList.take 2 = Numeral.padded 2 t.month := by
  obtain ⟨hlength, -⟩ := Numeral.padded_two t.month_mem.2
  rw [slashed, String.toList_ofList, List.append_assoc]
  exact List.take_left' hlength

private theorem slashed_ne : t.slashed ≠ "Invalid Date" := by
  intro h
  obtain ⟨-, hdigits⟩ := Numeral.padded_two t.month_mem.2
  rw [← take_slashed, h] at hdigits
  exact hdigits (by decide)

private theorem getElem?_monthNames : monthNames[t.month - 1]? = some t.monthName := by
  have hlt : t.month - 1 < monthNames.length := Nat.sub_one_lt_of_le t.month_mem.1 t.month_mem.2
  rw [monthName, List.getD_eq_getElem?_getD, List.getElem?_eq_getElem hlt, Option.getD_some]

end Date

namespace Value

/-- Whether a value is a number: an integer or a double. -/
inductive IsNumber : Value → Prop
  | int (n : Int) : IsNumber (.int n)
  | float (x : Float) : IsNumber (.float x)

/-- Whether a value is an integer beyond the range of doubles. -/
def BeyondDoubles (v : Value) : Prop :=
  ∃ n, v = .int n ∧ Binary64.integerBound ≤ n.natAbs

end Value

namespace Builtin

/-- Whether a value has a month and a date, and they tell the same: there is no month exactly if the
date is invalid, and otherwise the month has the name that belongs to the two digits with which the
date begins. -/
def MonthMatchesDate (v : Value) : Prop :=
  ∃ (month : Value) (date : String),
    (∀ draws, Builtin.month.callable.call [v] draws = (.ok month, draws)) ∧
      (∀ draws, Builtin.secondsToDate.callable.call [v] draws = (.ok (.text date), draws)) ∧
      (month = .null ↔ date = "Invalid Date") ∧
      (date ≠ "Invalid Date" → ∃ m name, Date.monthNames[m]? = some name ∧
        date.toList.take 2 = Numeral.padded 2 (m + 1) ∧ month = .text name)

private theorem call_month (v : Value) (draws : Draws) :
    Builtin.month.callable.call [v] draws = (Fault.ofTrap (monthOf v), draws) := rfl

private theorem call_secondsToDate (v : Value) (draws : Draws) :
    Builtin.secondsToDate.callable.call [v] draws = (.ok (.text (dateOfSeconds v)), draws) := rfl

def monthValue (t : Option Date) : Value :=
  (t.map fun t => Value.text t.monthName).getD .null

def dateText (t : Option Date) : String :=
  (t.map Date.slashed).getD "Invalid Date"

private theorem monthMatchesDate_of_date {v : Value} {t : Option Date}
    (hmonth : monthOf v = .ok (monthValue t)) (hdate : dateOfSeconds v = dateText t) :
    MonthMatchesDate v := by
  refine ⟨monthValue t, dateText t, fun draws => ?_, fun draws => ?_, ?_⟩
  · rw [call_month, hmonth]
    rfl
  · rw [call_secondsToDate, hdate]
  · cases t with
    | none => exact ⟨iff_of_true rfl rfl, fun h => absurd rfl h⟩
    | some t =>
      refine ⟨iff_of_false nofun t.slashed_ne, fun _ => ⟨t.month - 1, t.monthName, ?_, ?_, rfl⟩⟩
      · exact t.getElem?_monthNames
      · rw [Nat.sub_add_cancel t.month_mem.1]
        exact t.take_slashed

private theorem monthOf_float (x : Float) :
    monthOf (.float x) = .ok (monthValue (Date.ofSeconds? x)) := by
  cases h : x.isFinite with
  | true =>
    simp only [monthOf, Value.isFiniteNumber, Value.number, h]
    rfl
  | false =>
    have hnone : Date.ofSeconds? x = none := by simp [Date.ofSeconds?, h]
    simp only [monthOf, Value.isFiniteNumber, h, hnone]
    rfl

private theorem monthOf_int {n : Int} {x : Float} (h : Binary64.ofInt? n = some x) :
    monthOf (.int n) = .ok (monthValue (Date.ofSeconds? x)) := by
  have hdouble : Value.double n = .ok x := by rw [Value.double, h]
  simp only [monthOf, Value.isFiniteNumber, Value.number, hdouble]
  rfl

private theorem dateOfSeconds_int {n : Int} {x : Float} (h : Binary64.ofInt? n = some x) :
    dateOfSeconds (.int n) = dateText (Date.ofSeconds? x) := by
  rw [dateOfSeconds, Value.number, Value.double, h]
  rfl

private theorem monthMatchesDate_of_number {v : Value} (hv : v.IsNumber) (h : ¬v.BeyondDoubles) :
    MonthMatchesDate v := by
  cases hv with
  | float x => exact monthMatchesDate_of_date (monthOf_float x) rfl
  | int n =>
    have hsome : Binary64.ofInt? n ≠ none := fun hnone =>
      h ⟨n, rfl, Binary64.ofInt?_eq_none_iff.mp hnone⟩
    obtain ⟨x, hx⟩ := Option.ne_none_iff_exists'.mp hsome
    exact monthMatchesDate_of_date (monthOf_int hx) (dateOfSeconds_int hx)

section Beyond

variable {v : Value} (h : v.BeyondDoubles)
include h

private theorem number_of_beyondDoubles : v.number = .error .overflow := by
  obtain ⟨n, rfl, hn⟩ := h
  rw [Value.number, Value.double, Binary64.ofInt?_eq_none_iff.mpr hn]

private theorem month_of_beyondDoubles (draws : Draws) :
    Builtin.month.callable.call [v] draws = (.error (.trap .overflow), draws) := by
  have hnumber := number_of_beyondDoubles h
  obtain ⟨n, rfl, -⟩ := h
  have hmonth : monthOf (.int n) = .error .overflow := by
    change Value.double n = .error .overflow at hnumber
    simp only [monthOf, Value.isFiniteNumber, hnumber]
    rfl
  rw [call_month, hmonth]
  rfl

private theorem secondsToDate_of_beyondDoubles (draws : Draws) :
    Builtin.secondsToDate.callable.call [v] draws = (.ok (.text "Invalid Date"), draws) := by
  have hdate : dateOfSeconds v = "Invalid Date" := by
    rw [dateOfSeconds, number_of_beyondDoubles h]
  rw [call_secondsToDate, hdate]

private theorem not_monthMatchesDate_of_beyondDoubles : ¬MonthMatchesDate v := by
  rintro ⟨month, -, hmonth, -⟩
  have hanswer := hmonth (.cycle [])
  rw [month_of_beyondDoubles h] at hanswer
  cases hanswer

end Beyond

/-- The month and the date of a number tell the same exactly if it is no integer beyond the range of
doubles. The date of such an integer is invalid, and its month is stopped. -/
theorem month_matches_date_iff {v : Value} (hv : v.IsNumber) :
    (MonthMatchesDate v ↔ ¬v.BeyondDoubles) ∧
      (v.BeyondDoubles → ∀ draws,
        Builtin.month.callable.call [v] draws = (.error (.trap .overflow), draws) ∧
          Builtin.secondsToDate.callable.call [v] draws = (.ok (.text "Invalid Date"), draws)) := by
  refine ⟨⟨fun h hbeyond => ?_, monthMatchesDate_of_number hv⟩, fun hbeyond draws => ⟨?_, ?_⟩⟩
  · exact not_monthMatchesDate_of_beyondDoubles hbeyond h
  · exact month_of_beyondDoubles hbeyond draws
  · exact secondsToDate_of_beyondDoubles hbeyond draws

/-- The largest integer with a double, and the next one. -/
theorem month_matches_date_iff_largest :
    let n : Nat := Binary64.integerBound - 1
    let next : Nat := Binary64.integerBound
    (Value.int n).IsNumber ∧ MonthMatchesDate (.int n) ∧ (Value.int next).IsNumber ∧
      (Value.int next).BeyondDoubles ∧ ∀ draws,
        Builtin.month.callable.call [.int next] draws = (.error (.trap .overflow), draws) := by
  intro n next
  have hn : ¬(Value.int n).BeyondDoubles := by
    rintro ⟨m, hm, hle⟩
    rw [← Value.int.inj hm, Int.natAbs_natCast] at hle
    exact absurd hle (Nat.not_le.mpr (Nat.sub_one_lt Binary64.integerBound_pos.ne'))
  have hnext : (Value.int next).BeyondDoubles := ⟨next, rfl, (Int.natAbs_natCast next).ge⟩
  obtain ⟨hmatches, -⟩ := month_matches_date_iff (.int n)
  obtain ⟨-, hstops⟩ := month_matches_date_iff (.int next)
  exact ⟨.int n, hmatches.mpr hn, .int next, hnext, fun draws => (hstops hnext draws).1⟩

/-- The month of an integer of 401 digits is stopped, though its date is invalid. -/
theorem not_monthMatchesDate_of_large : ¬MonthMatchesDate (.int (10 ^ 400 : Nat)) := by
  have hlarge : Binary64.integerBound ≤ ((10 ^ 400 : Nat) : Int).natAbs := by decide +kernel
  exact not_monthMatchesDate_of_beyondDoubles ⟨_, rfl, hlarge⟩

end Builtin

end FormulaEngine

import FormulaEngine.Number.Numeral
/-!
# Calendar dates

Dates of the Gregorian calendar, extended back to the year 1 and up to the year 9999, their number
in the sequence of days, and their written forms.
-/
namespace FormulaEngine

def isLeapYear (y : Nat) : Bool :=
  y % 4 = 0 && (y % 100 ≠ 0 || y % 400 = 0)

def daysInMonth (y m : Nat) : Nat :=
  if m = 2 then (if isLeapYear y then 29 else 28)
  else if m = 4 ∨ m = 6 ∨ m = 9 ∨ m = 11 then 30
  else 31

/-- A day of the calendar. -/
structure Date where
  year : Nat
  month : Nat
  day : Nat
  year_mem : 1 ≤ year ∧ year ≤ 9999
  month_mem : 1 ≤ month ∧ month ≤ 12
  day_mem : 1 ≤ day ∧ day ≤ daysInMonth year month
deriving DecidableEq

namespace Date

/-- The date of a year, a month and a day, if the calendar has it. -/
def ofParts? (y m d : Nat) : Option Date :=
  if hy : 1 ≤ y ∧ y ≤ 9999 then
    if hm : 1 ≤ m ∧ m ≤ 12 then
      if hd : 1 ≤ d ∧ d ≤ daysInMonth y m then some ⟨y, m, d, hy, hm, hd⟩ else none
    else none
  else none

/-- The number of days before a year, counted from the year 1. -/
def daysBeforeYear (y : Nat) : Nat :=
  let p := y - 1
  365 * p + p / 4 - p / 100 + p / 400

/-- The month and the day, given the number of earlier days of the year and the lengths of the
months from a given one on. -/
def inYear (m : Nat) : List Nat → Nat → Option (Nat × Nat)
  | [], _ => none
  | n :: r, days => if days < n then some (m, days + 1) else inYear (m + 1) r (days - n)

/-- The date of the day with a given number; day 1 is the first of January of the year 1. -/
def ofDayNumber? (n : Nat) : Option Date :=
  if n = 0 then none
  else
    let days := n - 1
    -- centuries of four, centuries, leap periods and years that are complete
    let a := days / 146097
    let b := min (days % 146097 / 36524) 3
    let rest := days % 146097 - 36524 * b
    let c := rest / 1461
    let d := min (rest % 1461 / 365) 3
    let y := 400 * a + 100 * b + 4 * c + d + 1
    let lengths := (List.range 12).map fun m => daysInMonth y (m + 1)
    (inYear 1 lengths (rest % 1461 - 365 * d)).bind fun (m, t) => ofParts? y m t

/-- The number of the first day of a year. -/
def firstDay (y : Nat) : Nat :=
  daysBeforeYear y + 1

/-- The weekday of the day with a given number, from Monday as 0 to Sunday as 6. -/
def weekday (n : Nat) : Nat :=
  (n + 6) % 7

/-- The English names of the months. -/
def monthNames : List String :=
  [ "January", "February", "March", "April", "May", "June", "July", "August", "September",
    "October", "November", "December" ]

def monthName (t : Date) : String :=
  monthNames.getD (t.month - 1) ""

def iso (t : Date) : String :=
  String.ofList (Numeral.padded 4 t.year ++ '-' :: Numeral.padded 2 t.month ++
    '-' :: Numeral.padded 2 t.day)

/-- Month, day and the last two digits of the year with slashes. -/
def slashed (t : Date) : String :=
  String.ofList (Numeral.padded 2 t.month ++ '/' :: Numeral.padded 2 t.day ++
    '/' :: Numeral.padded 2 (t.year % 100))

end Date

/-- A date and a time of day to the microsecond. -/
structure Moment where
  date : Date
  hour : Nat
  minute : Nat
  second : Nat
  microsecond : Nat
  hour_lt : hour < 24
  minute_lt : minute < 60
  second_lt : second < 60
  microsecond_lt : microsecond < 1000000
deriving DecidableEq

namespace Moment

/-- The moment of a date and a time of day, if the day has it. -/
def ofParts? (t : Date) (h m s u : Nat) : Option Moment :=
  if hh : h < 24 then
    if hm : m < 60 then
      if hs : s < 60 then
        if hu : u < 1000000 then some ⟨t, h, m, s, u, hh, hm, hs, hu⟩ else none
      else none
    else none
  else none

/-- The date and the time with a mark between them; a fraction of a second is written only if there
is one. -/
def iso (t : Moment) (mark : Char) : String :=
  let fraction :=
    if t.microsecond = 0 then [] else '.' :: Numeral.padded 6 t.microsecond
  String.ofList (t.date.iso.toList ++ mark :: Numeral.padded 2 t.hour ++
    ':' :: Numeral.padded 2 t.minute ++ ':' :: Numeral.padded 2 t.second ++ fraction)

end Moment

end FormulaEngine

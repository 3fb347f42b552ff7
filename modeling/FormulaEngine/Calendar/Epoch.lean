import FormulaEngine.Calendar.Date
/-!
# Seconds since 1970

The date of a number of seconds since the beginning of 1970, in universal time.
-/
namespace FormulaEngine.Date
open Binary64

/-- The number of the first day of 1970. -/
def epochDay : Nat := 719163

/-- Whole seconds, after the fraction of a second has been rounded to microseconds, a half to the
even one; a fraction that rounds to a full second, or lies below zero, changes the whole. -/
def wholeSeconds (x : Float) : Int :=
  let whole := truncate x
  let micro := roundEven ((x - whole) * 1e6)
  if 1e6 ≤ micro then toInt whole + 1
  else if micro < 0.0 then toInt whole - 1
  else toInt whole

/-- The first second that has a date is the start of the second day of the year 1. -/
def firstSecond : Int := -62135510400

/-- The last second that has a date is the last one of the year 9999. -/
def lastSecond : Int := 253402300799

/-- The date of a number of seconds since the beginning of 1970. -/
def ofSeconds? (x : Float) : Option Date :=
  if !x.isFinite then none
  else
    let s := wholeSeconds x
    if firstSecond ≤ s ∧ s ≤ lastSecond then
      ofDayNumber? ((s.fdiv 86400 + epochDay).toNat)
    else none

end FormulaEngine.Date

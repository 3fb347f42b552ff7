import FormulaEngine.Calendar.Date
/-!
# Written dates and times

Reads a date, alone or with a time of day and an offset from universal time, in the basic and
extended forms of ISO 8601. Any one character may stand between the date and the time. Positions and
lengths count the bytes of the UTF-8 form, in which only an ASCII character is a single byte.
-/
namespace FormulaEngine.Calendar.Iso
open Text

/-- A text with each character repeated for every byte of its UTF-8 form, so that positions are
those of bytes. A character of several bytes has no meaning in a date or a time, and none of its
bytes is mistaken for an ASCII character. -/
def byBytes (s : List Char) : List Char :=
  s.flatMap fun c => List.replicate c.utf8Size c

/-- The character at a position, and NUL beyond the end. -/
def charAt (s : List Char) (i : Nat) : Char :=
  s.getD i '\x00'

/-- Reads exactly `n` digits at the front of a text. -/
def number? (n : Nat) (s : List Char) : Option (Nat × List Char) :=
  let ds := (s.take n).filterMap asciiDigit?
  if ds.length = n then some (ofDigits ds, s.drop n) else none

/-- The length of the date at the front of a text, which decides where the time starts. -/
def dateLength? (s : List Char) : Option Nat :=
  let n := s.length
  if n < 7 then none
  else if n = 7 then some 7
  else if charAt s 4 = '-' then
    if charAt s 5 = 'W' then
      if 8 < n ∧ charAt s 8 = '-' then
        if n = 9 then none
        -- the hyphen may already be the mark before the time
        else if isAsciiDigit (charAt s 10) then some 8
        else some 10
      else some 8
    else some 10
  else if charAt s 4 = 'W' then
    let stop := 7 + ((s.drop 7).takeWhile isAsciiDigit).length
    if stop < 9 then some stop
    else if stop % 2 = 0 then some 7
    else some 8
  else some 8

/-- Whether a year has a week 53: it starts on a Thursday, or on a Wednesday and is a leap year. -/
def hasLongWeek (y : Nat) : Bool :=
  let first := Date.weekday (Date.firstDay y)
  first = 3 || (first = 2 && isLeapYear y)

/-- The number of the Monday of the first week of a year, the week that holds its first Thursday. -/
def firstMonday (y : Nat) : Nat :=
  let first := Date.firstDay y
  let w := Date.weekday first
  if 3 < w then first + 7 - w else first - w

/-- The date of a year, a week and a day of the week. -/
def ofWeek? (y w d : Nat) : Option Date :=
  if 1 ≤ y ∧ y ≤ 9999 ∧ 1 ≤ w ∧ (w ≤ 52 ∨ w = 53 ∧ hasLongWeek y) ∧ 1 ≤ d ∧ d ≤ 7 then
    Date.ofDayNumber? (firstMonday y + 7 * (w - 1) + (d - 1))
  else none

/-- Skips a hyphen, if there has to be one. -/
def hyphen? (needed : Bool) (s : List Char) : Option (List Char) :=
  match needed, s with
  | false, s => some s
  | true, '-' :: r => some r
  | true, _ => none

/-- Reads a date that is `length` bytes long. -/
def date? (length : Nat) (s : List Char) : Option Date := do
  let (y, r) ← number? 4 s
  let extended := charAt r 0 = '-'
  let r := if extended then r.drop 1 else r
  match r with
  | 'W' :: r =>
    let (w, r) ← number? 2 r
    if s.length - r.length < length then
      let (d, _) ← number? 1 (← hyphen? extended r)
      ofWeek? y w d
    else ofWeek? y w 1
  | r =>
    let (m, r) ← number? 2 r
    let (d, _) ← number? 2 (← hyphen? extended r)
    Date.ofParts? y m d

/-- A time of day as read: hours, minutes and seconds, and whether the text ended with them. -/
structure Clock where
  fields : List Nat
  complete : Bool

/-- The number of seconds of a time of day. -/
def Clock.seconds (c : Clock) : Nat :=
  3600 * c.fields.getD 0 0 + 60 * c.fields.getD 1 0 + c.fields.getD 2 0

/-- Reads the fraction of a second at position `p` of a text whose time of day ends at `stop`: up
to six digits that count, and further digits that do not. -/
def fraction? (s : List Char) (p stop : Nat) (fields : List Nat) : Option Clock := do
  let (_, r) ← number? (min 6 (stop - p)) (s.drop p)
  return ⟨fields, charAt (r.dropWhile isAsciiDigit) 0 = '\x00'⟩

/-- Reads `n` more fields of two digits from position `p` of a text whose time of day ends at
`stop`, then a fraction of a second. Colons stand between all fields or between none. -/
def fields? (s : List Char) (stop : Nat) :
    (n p : Nat) → (colons : Option Bool) → (fields : List Nat) → Option Clock
  | 0, p, _, fields => fraction? s p stop fields
  | n + 1, p, colons, fields =>
    match number? 2 (s.drop p) with
    | none => none
    | some (v, _) =>
      let fields := fields ++ [v]
      let c := charAt s (p + 2)
      let colons := colons.getD (c = ':')
      if stop ≤ p + 3 then some ⟨fields, c = '\x00'⟩
      else if colons && c = ':' then fields? s stop n (p + 3) (some colons) fields
      else if c = '.' ∨ c = ',' then fraction? s (p + 3) stop fields
      else if colons then none
      else fields? s stop n (p + 2) (some colons) fields

/-- Reads a time of day that ends at position `stop`. -/
def clock? (s : List Char) (stop : Nat) : Option Clock :=
  fields? s stop 3 0 none []

/-- Whether a text after the sign of an offset is an offset of less than a day. -/
def isOffset (s : List Char) : Bool :=
  match clock? s s.length with
  | some c => c.complete && c.seconds < 86400
  | none => false

/-- Whether a text is a time of day, with an offset if any. -/
def isTime (s : List Char) : Bool :=
  let stop := (s.takeWhile fun c => c ≠ '+' ∧ c ≠ '-' ∧ c ≠ 'Z').length
  match clock? s stop with
  | none => false
  | some c =>
    let inDay := c.fields.getD 0 0 < 24 && c.fields.getD 1 0 < 60 && c.fields.getD 2 0 < 60
    let zone := match s.drop stop with
      | [] => c.complete
      | 'Z' :: r => charAt r 0 = '\x00'
      | _ :: r => isOffset r
    inDay && zone

/-- The date of a text that is a date, or a date, any one character and a time. -/
def read? (s : List Char) : Option Date := do
  let bytes := byBytes s
  let n ← dateLength? bytes
  let t ← date? n bytes
  match bytes.drop n with
  | [] => return t
  | c :: r => if isTime (r.drop (c.utf8Size - 1)) then return t else none

end FormulaEngine.Calendar.Iso

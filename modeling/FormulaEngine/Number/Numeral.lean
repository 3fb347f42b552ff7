import FormulaEngine.Number.Shortest
import FormulaEngine.Text.Digit
/-!
# Numerals

How a double is written, with the fewest digits that read back as it, and which texts are read as
a double.
-/
namespace FormulaEngine.Numeral
open Binary64 Text

/-- The decisions of a way to write doubles. -/
structure Style where
  /-- Leading digits from this power of ten on are written without an exponent. -/
  positionalFrom : Int
  /-- Leading digits below this power of ten are written without an exponent. -/
  positionalBelow : Int
  /-- The least number of digits of a written exponent. -/
  exponentWidth : Nat
  infinity : String
  nan : String

/-- Plain notation from `0.0001` up to `10 ^ 16`, and an exponent of two digits beyond. -/
def plain : Style := ⟨-4, 16, 2, "inf", "nan"⟩

def digits (n : Nat) : List Char :=
  Nat.toDigits 10 n

def ofNat (n : Nat) : String :=
  String.ofList (digits n)

def ofInt (n : Int) : String :=
  String.ofList (if n < 0 then '-' :: digits n.natAbs else digits n.natAbs)

def padded (width n : Nat) : List Char :=
  let ds := digits n
  List.replicate (width - ds.length) '0' ++ ds

/-- The text of a positive decimal number; at least one digit follows a point, and an exponent
follows digits without a needless point. -/
def Style.decimal (style : Style) (x : Shortest.Decimal) : List Char :=
  let ds := digits x.digits
  let top : Int := x.exponent + ds.length - 1
  if style.positionalFrom ≤ top ∧ top < style.positionalBelow then
    if top < 0 then '0' :: '.' :: (List.replicate (-top - 1).toNat '0' ++ ds)
    else
      let whole := top.toNat + 1
      let fraction := ds.drop whole
      ds.take whole ++ List.replicate (whole - ds.length) '0' ++
        '.' :: (if fraction.isEmpty then ['0'] else fraction)
  else
    let fraction := ds.drop 1
    ds.take 1 ++ (if fraction.isEmpty then [] else '.' :: fraction) ++
      'e' :: (if top < 0 then '-' else '+') :: padded style.exponentWidth top.natAbs

def Style.float (style : Style) (x : Float) : String :=
  if x.isNaN then style.nan
  else
    let p := parts x
    let body :=
      if x.isInf then style.infinity.toList
      else if p.significand = 0 then ['0', '.', '0']
      else style.decimal (Shortest.shortest p)
    String.ofList (if p.negative then '-' :: body else body)

/-- The double nearest to `n * 10 ^ e`. Beyond the largest double lies infinity; that and zero are
told by the number of digits alone where the power is out of all proportion. -/
def ofDecimal (n : Nat) (e : Int) : Float :=
  let top := e + (digits n).length
  if n = 0 ∨ top < -400 then 0.0
  else if 400 < top then infinity
  else
    let (a, b) := scaled 10 n 1 e
    (ofRatio? a b).getD infinity

/-- Drops underscores that stand between two digits; no text with another underscore is a number. -/
def withoutUnderscores? : List Char → Option (List Char)
  | [] => some []
  | '_' :: _ => none
  | c :: '_' :: d :: r =>
    if isAsciiDigit c && isAsciiDigit d then (withoutUnderscores? (d :: r)).map (c :: ·) else none
  | c :: r => (withoutUnderscores? r).map (c :: ·)

/-- Splits a sign off a text. -/
def signed : List Char → Bool × List Char
  | '-' :: r => (true, r)
  | '+' :: r => (false, r)
  | r => (false, r)

/-- Splits the digits at the front off a text. -/
def splitDigits (s : List Char) : List Nat × List Char :=
  ((s.takeWhile isAsciiDigit).filterMap asciiDigit?, s.dropWhile isAsciiDigit)

/-- The exponent that ends a number: nothing, or the letter `e`, a sign if any, and digits. -/
def exponent? : List Char → Option Int
  | [] => some 0
  | c :: r =>
    if c = 'e' ∨ c = 'E' then
      let (negative, r) := signed r
      match splitDigits r with
      | (ds@(_ :: _), []) => some (if negative then -(ofDigits ds : Int) else ofDigits ds)
      | _ => none
    else none

/-- Reads digits with at most one point among them, and an exponent. -/
def decimal? (s : List Char) : Option Float :=
  let (whole, r) := splitDigits s
  let (fraction, r) := match r with
    | '.' :: r => splitDigits r
    | _ => ([], r)
  let ds := whole ++ fraction
  if ds.isEmpty then none
  else (exponent? r).map fun e => ofDecimal (ofDigits ds) (e - fraction.length)

/-- Reads an unsigned number: decimal digits or a word for infinity or no number, in any case. -/
def unsigned? (s : List Char) : Option Float :=
  let word := String.ofList (s.map Char.toLower)
  if word = "inf" ∨ word = "infinity" then some infinity
  else if word = "nan" then some nan
  else decimal? s

/-- The ASCII digit for a decimal digit of any script; other characters stay. -/
def asciiForm (c : Char) : Char :=
  match digitValue? c with
  | some d => Nat.digitChar d
  | none => c

/-- Reads a text without blanks at its ends as a double. -/
def read? (s : List Char) : Option Float := do
  let (negative, r) := signed (← withoutUnderscores? (s.map asciiForm))
  let x ← unsigned? r
  return if negative then -x else x

end FormulaEngine.Numeral

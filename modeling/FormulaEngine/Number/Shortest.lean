import FormulaEngine.Number.Binary64
/-!
# Shortest decimal digits

The fewest decimal digits that read back as a given double. The numbers that read back as it fill
an interval around it; for one digit, two digits and so on, the two neighbours of the double on
that decimal grid are tried, and the first grid with a neighbour inside the interval wins.
-/
namespace FormulaEngine.Shortest
open Binary64

/-- A decimal number `digits * 10 ^ exponent`. -/
structure Decimal where
  digits : Nat
  exponent : Int
deriving DecidableEq

/-- A positive double as numbers of one small unit: its value and the ends of the interval of the
numbers that read back as it. The ends belong to the interval if `closed`. -/
structure Interval where
  low : Nat
  value : Nat
  high : Nat
  closed : Bool

/-- The interval of a significand and the power of two of its unit, which is a quarter of the
distance to the next double above. Below a power of two the next double is half as far. -/
def interval (p : Parts) : Interval × Int :=
  let m := 4 * p.significand
  let close := p.significand = power2 52 ∧ -1074 < p.exponent
  (⟨if close then m - 1 else m - 2, m, m + 2, p.significand % 2 = 0⟩, p.exponent - 2)

/-- Whether the ratio `n / d` lies in an interval. -/
def Interval.holds (i : Interval) (n d : Nat) : Bool :=
  if i.closed then i.low * d ≤ n && n ≤ i.high * d else i.low * d < n && n < i.high * d

/-- The neighbour on the grid of multiples of `10 ^ e` that lies in the interval, if one does; of
two the nearer one, and of two at equal distance the even one. The interval counts in units of
`2 ^ u`. -/
def neighbour? (i : Interval) (u e : Int) : Option Nat :=
  let (a, b) := scaled 2 i.value 1 u
  let (c, d) := scaled 10 a b (-e)
  let q := c / d
  -- the grid point `k` counts `k * t / w` units
  let (t, w) := scaled 2 1 1 (-u)
  let (t, w) := scaled 10 t w e
  let below := i.holds (q * t) w
  let above := i.holds ((q + 1) * t) w
  if below && above then some (roundDiv c d)
  else if below then some q
  else if above then some (q + 1)
  else none

/-- The decimal exponent of the leading digit of `n / d`, given a guess that is at most one too
small. -/
def leading (n d : Nat) (guess : Int) : Int :=
  let (a, b) := scaled 10 n d (-(guess + 1))
  if b ≤ a then guess + 1 else guess

/-- The decimal exponent of the leading digit of a positive double. -/
def magnitude (p : Parts) : Int :=
  let (a, b) := scaled 2 p.significand 1 p.exponent
  let bits : Int := Nat.log2 p.significand + p.exponent
  leading a b (bits * 30103 / 100000 - (if bits < 0 then 1 else 0))

/-- Drops the zeros at the end of the digits. -/
def Decimal.normalize (fuel : Nat) (x : Decimal) : Decimal :=
  match fuel with
  | 0 => x
  | fuel + 1 =>
    if x.digits % 10 = 0 then normalize fuel ⟨x.digits / 10, x.exponent + 1⟩ else x

/-- The shortest decimal number that reads back as a positive double. -/
def shortest (p : Parts) : Decimal :=
  let (i, u) := interval p
  let top := magnitude p
  let grids := (List.range 17).map fun k : Nat => top - k
  match grids.findSome? fun e => (neighbour? i u e).map fun n => Decimal.mk n e with
  | some x => x.normalize 17
  | none => ⟨0, 0⟩

end FormulaEngine.Shortest

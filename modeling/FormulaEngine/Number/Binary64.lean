/-!
# Exact arithmetic on doubles

A finite double is a sign and a natural number times a power of two. Through this view the module
rounds exact quotients to the nearest double, takes integer parts and forms exact remainders.
-/
namespace FormulaEngine.Binary64

/-- The quotient of two numbers rounded to the nearest integer, a half to the even one. -/
def roundDiv (n d : Nat) : Nat :=
  let q := n / d
  let r := n % d
  if 2 * r < d then q
  else if d < 2 * r then q + 1
  else q + q % 2

/-- The rounded quotient is within half a unit of the exact one. -/
theorem roundDiv_near {n d : Nat} (hd : 0 < d) :
    2 * n ≤ 2 * (roundDiv n d * d) + d ∧ 2 * (roundDiv n d * d) ≤ 2 * n + d := by
  have h := Nat.div_add_mod' n d
  have hr := Nat.mod_lt n hd
  unfold roundDiv
  generalize n / d = q at *
  generalize n % d = r at *
  have e : (q + 1) * d = q * d + d := Nat.succ_mul q d
  dsimp only
  split
  · omega
  · split
    · omega
    · rcases Nat.mod_two_eq_zero_or_one q with hq | hq <;> rw [hq]
      · rw [Nat.add_zero]; omega
      · omega

theorem roundDiv_half (q d : Nat) (hd : 0 < d) :
    roundDiv (q * (2 * d) + d) (2 * d) = q + q % 2 := by
  have h1 : (q * (2 * d) + d) / (2 * d) = q := by
    rw [Nat.add_comm, Nat.add_mul_div_right _ _ (by omega), Nat.div_eq_of_lt (by omega),
      Nat.zero_add]
  have h2 : (q * (2 * d) + d) % (2 * d) = d := by
    rw [Nat.add_comm, Nat.add_mul_mod_self_right, Nat.mod_eq_of_lt (by omega)]
  simp [roundDiv, h1, h2]

def power2 (n : Nat) : Nat :=
  Nat.pow 2 n

/-- The sign, significand and power of two of a finite double. -/
structure Parts where
  negative : Bool
  significand : Nat
  exponent : Int

/-- The parts of a double; for an infinity or a NaN they mean nothing. -/
def parts (x : Float) : Parts :=
  let bits := x.toBits.toNat
  let fraction : Nat := bits % power2 52
  let biased : Nat := bits / power2 52 % power2 11
  { negative := bits / power2 63 = 1
    significand := if biased = 0 then fraction else fraction + power2 52
    exponent := (if biased = 0 then 1 else (biased : Int)) - 1075 }

/-- The number `n / d * base ^ e` as a ratio of natural numbers. -/
def scaled (base n d : Nat) (e : Int) : Nat × Nat :=
  if e < 0 then (n, d * Nat.pow base (-e).toNat) else (n * Nat.pow base e.toNat, d)

/-- The least power of two in which the quotient `n / d` has at most 53 binary digits, but not
below the power of the smallest double. -/
def unitExponent (n d : Nat) : Int :=
  let e := (Nat.log2 n : Int) - Nat.log2 d - 53
  let (a, b) := scaled 2 n d (-e)
  max (if a / b < power2 53 then e else e + 1) (-1074)

/-- The double nearest to a quotient of natural numbers, a half to the even one; none if that lies
beyond the largest double. -/
def ofRatio? (n d : Nat) : Option Float :=
  if n = 0 then some 0.0
  else
    let e := unitExponent n d
    let (a, b) := scaled 2 n d (-e)
    let bits := (e + 1074).toNat * power2 52 + roundDiv a b
    if bits < 2047 * power2 52 then some (Float.ofBits bits.toUInt64) else none

/-- The double nearest to an integer; none if that lies beyond the largest double. -/
def ofInt? (n : Int) : Option Float :=
  (ofRatio? n.natAbs 1).map fun x => if n < 0 then -x else x

/-- The integer part of a finite double, toward zero. -/
def toInt (x : Float) : Int :=
  let p := parts x
  let (a, b) := scaled 2 p.significand 1 p.exponent
  let n : Int := (a / b : Nat)
  if p.negative then -n else n

def isIntegral (x : Float) : Bool :=
  let p := parts x
  let (a, b) := scaled 2 p.significand 1 p.exponent
  a % b = 0

/-- The remainder of the quotient of two doubles toward zero, with the sign of the first. It is
exact, and a NaN where there is none. -/
def remainder (x y : Float) : Float :=
  if x.isNaN || y.isNaN || x.isInf || y == 0.0 then 0.0 / 0.0
  else if y.isInf then x
  else
    let p := parts x
    let q := parts y
    let e := min p.exponent q.exponent
    let a := p.significand * power2 (p.exponent - e).toNat
    let b := q.significand * power2 (q.exponent - e).toNat
    let (n, d) := scaled 2 (a % b) 1 e
    let r := (ofRatio? n d).getD 0.0
    if p.negative then -r else r

def infinity : Float := 1.0 / 0.0

def nan : Float := 0.0 / 0.0

/-- The integer part of a double toward zero, as a double; an infinity or a NaN stays. A zero
result has no sign. -/
def truncate (x : Float) : Float :=
  if !x.isFinite then x
  else if x < 0.0 then x.ceil + 0.0
  else x.floor + 0.0

/-- The nearest integer to a double whose fraction is not a half, and else the even neighbour. -/
def roundEven (x : Float) : Float :=
  let r := x.round
  if (x - r).abs == 0.5 then 2.0 * (x / 2.0).round else r

end FormulaEngine.Binary64

import FormulaEngine.Value
import Mathlib.Algebra.Order.Ring.Nat
/-!
# The range of integers

An integer is turned into the nearest double, a half to the even one, unless it is too large. The
least integer that is too large lies half a unit below the power of two above the largest double: it
would be rounded up to that power.
-/
namespace FormulaEngine.Binary64

/-- The least size of an integer beyond the range of doubles. -/
def integerBound : Nat :=
  power2 1024 - power2 970

private theorem power2_eq (k : Nat) : power2 k = 2 ^ k := rfl

private theorem power2_succ (k : Nat) : power2 (k + 1) = 2 * power2 k :=
  Nat.pow_succ'

private theorem power2_add (j k : Nat) : power2 (j + k) = power2 j * power2 k :=
  Nat.pow_add 2 j k

private theorem power2_pos (k : Nat) : 0 < power2 k :=
  Nat.two_pow_pos k

private theorem power2_le {j k : Nat} (h : j ≤ k) : power2 j ≤ power2 k :=
  Nat.pow_le_pow_right (by decide) h

private theorem integerBound_eq : integerBound = (2 ^ 53 - 1) * (2 * power2 970) + power2 970 := by
  have htop : power2 1024 = power2 54 * power2 970 := power2_add 54 970
  rw [integerBound, htop, power2_eq 54]
  omega

theorem integerBound_pos : 0 < integerBound := by
  rw [integerBound_eq]
  exact Nat.add_pos_right _ (power2_pos 970)

section Rounding

variable {n d m : Nat}

private theorem le_roundDiv (hd : 0 < d) (h : m * d ≤ n) : m ≤ roundDiv n d := by
  have hnear := (roundDiv_near (n := n) hd).1
  have hlt : m * d < (roundDiv n d + 1) * d := by
    rw [Nat.succ_mul]
    omega
  exact Nat.le_of_lt_succ (Nat.lt_of_mul_lt_mul_right hlt)

private theorem roundDiv_le (hd : 0 < d) (h : n ≤ m * d) : roundDiv n d ≤ m := by
  have hnear := (roundDiv_near (n := n) hd).2
  have hlt : roundDiv n d * d < (m + 1) * d := by
    rw [Nat.succ_mul]
    omega
  exact Nat.le_of_lt_succ (Nat.lt_of_mul_lt_mul_right hlt)

private theorem roundDiv_le_iff_of_odd {k : Nat} (hk : 0 < k) (hm : m % 2 = 1) :
    roundDiv n (2 * k) ≤ m ↔ n < m * (2 * k) + k := by
  obtain ⟨hlow, hhigh⟩ := roundDiv_near (n := n) (d := 2 * k) (by omega)
  constructor
  · intro h
    by_contra hn
    have hmul : roundDiv n (2 * k) * (2 * k) ≤ m * (2 * k) := Nat.mul_le_mul_right _ h
    have htie : n = m * (2 * k) + k := by omega
    rw [htie, roundDiv_half m k hk, hm] at h
    omega
  · intro h
    have hlt : roundDiv n (2 * k) * (2 * k) < (m + 1) * (2 * k) := by
      rw [Nat.add_one_mul m]
      omega
    exact Nat.le_of_lt_succ (Nat.lt_of_mul_lt_mul_right hlt)

/-- In the unit of the largest doubles, an integer of their size is rounded to one of them exactly
if it is not beyond the range. -/
private theorem roundDiv_lt_iff : roundDiv n (2 * power2 970) < 2 ^ 53 ↔ n < integerBound := by
  have hodd : (2 ^ 53 - 1) % 2 = 1 := by decide
  rw [integerBound_eq, ← roundDiv_le_iff_of_odd (power2_pos 970) hodd]
  omega

end Rounding

section Integers

variable {n : Nat}

private theorem scaled_two_one (n : Nat) (e : Int) :
    scaled 2 n 1 (-e) = if 0 < e then (n, power2 e.toNat) else (n * power2 (-e).toNat, 1) := by
  have hneg : -e < 0 ↔ 0 < e := by omega
  simp only [scaled, hneg, Int.neg_neg, Nat.one_mul]
  rfl

private theorem power2_log2_le (hn : n ≠ 0) : power2 n.log2 ≤ n :=
  Nat.log2_self_le hn

private theorem lt_power2_log2 (n : Nat) : n < power2 (n.log2 + 1) :=
  Nat.lt_log2_self

private theorem lt_integerBound_of_log2 (h : n.log2 < 1023) : n < integerBound := by
  have hn : n < power2 1023 := (lt_power2_log2 n).trans_le (power2_le h)
  have htop : power2 1023 = power2 53 * power2 970 := power2_add 53 970
  rw [htop, power2_eq 53] at hn
  rw [integerBound_eq]
  omega

private theorem integerBound_le_of_log2 (hn : n ≠ 0) (h : 1024 ≤ n.log2) : integerBound ≤ n :=
  calc integerBound ≤ power2 1024 := Nat.sub_le _ _
    _ ≤ power2 n.log2 := power2_le h
    _ ≤ n := power2_log2_le hn

private theorem scaled_bounds (hn : n ≠ 0) (k : Nat) :
    let s := scaled 2 n 1 (-((n.log2 : Int) - k))
    0 < s.2 ∧ power2 k * s.2 ≤ s.1 ∧ s.1 < power2 (k + 1) * s.2 := by
  intro s
  have hlow := power2_log2_le hn
  have hhigh := lt_power2_log2 n
  have hs : s = _ := scaled_two_one n _
  by_cases h : 0 < (n.log2 : Int) - k
  · obtain ⟨j, hj⟩ : ∃ j, n.log2 = k + j := ⟨n.log2 - k, by omega⟩
    have hexponent : ((n.log2 : Int) - k).toNat = j := by omega
    rw [if_pos h, hexponent] at hs
    rw [hj] at hlow hhigh
    rw [hs]
    refine ⟨power2_pos j, ?_, ?_⟩
    · rwa [← power2_add]
    · rwa [← power2_add, Nat.add_right_comm]
  · obtain ⟨j, hj⟩ : ∃ j, k = n.log2 + j := ⟨k - n.log2, by omega⟩
    have hexponent : (-((n.log2 : Int) - k)).toNat = j := by omega
    rw [if_neg h, hexponent] at hs
    rw [hs, hj]
    refine ⟨Nat.one_pos, ?_, ?_⟩
    · rw [Nat.mul_one, power2_add]
      exact Nat.mul_le_mul_right _ hlow
    · rw [Nat.mul_one, Nat.add_right_comm, power2_add]
      exact Nat.mul_lt_mul_of_pos_right hhigh (power2_pos j)

private theorem unitExponent_one (hn : n ≠ 0) : unitExponent n 1 = (n.log2 : Int) - 52 := by
  have hexponent : (n.log2 : Int) - Nat.log2 1 - 53 = n.log2 - (53 : Nat) := by
    have hone : Nat.log2 1 = 0 := by decide
    rw [hone]
    omega
  obtain ⟨hpos, hlow, -⟩ := scaled_bounds hn 53
  have hquotient := (Nat.le_div_iff_mul_le hpos).mpr hlow
  unfold unitExponent
  simp only [hexponent]
  rw [if_neg (Nat.not_lt.mpr hquotient)]
  omega

private theorem ofRatio?_one_eq_none (hn : n ≠ 0) :
    ofRatio? n 1 = none ↔ 2047 * 2 ^ 52 ≤ (n.log2 + 1022) * 2 ^ 52 +
      roundDiv (scaled 2 n 1 (-((n.log2 : Int) - (52 : Nat)))).1
        (scaled 2 n 1 (-((n.log2 : Int) - (52 : Nat)))).2 := by
  have hexponent : ((n.log2 : Int) - 52 + 1074).toNat = n.log2 + 1022 := by omega
  unfold ofRatio?
  rw [if_neg hn, unitExponent_one hn]
  dsimp only
  rw [hexponent]
  split
  next h => exact iff_of_false nofun (Nat.not_le.mpr h)
  next h => exact iff_of_true rfl (Nat.not_lt.mp h)

private theorem ofRatio?_one_eq_none_iff : ofRatio? n 1 = none ↔ integerBound ≤ n := by
  by_cases hn : n = 0
  · subst hn
    exact iff_of_false nofun (Nat.not_le.mpr integerBound_pos)
  · rw [ofRatio?_one_eq_none hn]
    obtain ⟨hpos, hlow, hhigh⟩ := scaled_bounds hn 52
    have hs := scaled_two_one n ((n.log2 : Int) - (52 : Nat))
    generalize scaled 2 n 1 (-((n.log2 : Int) - (52 : Nat))) = s at *
    have hleast : 2 ^ 52 ≤ roundDiv s.1 s.2 := le_roundDiv hpos hlow
    have hmost : roundDiv s.1 s.2 ≤ 2 ^ 53 := roundDiv_le hpos (Nat.le_of_lt hhigh)
    rcases Nat.lt_trichotomy n.log2 1023 with hlt | heq | hgt
    · refine iff_of_false ?_ (Nat.not_le.mpr (lt_integerBound_of_log2 hlt))
      omega
    · have hunit : s = (n, 2 * power2 970) := by
        have hexponent : (((1023 : Nat) : Int) - (52 : Nat)).toNat = 970 + 1 := rfl
        rw [hs, heq, if_pos (by decide), hexponent, power2_succ]
      rw [hunit] at hleast hmost ⊢
      rw [heq, ← Nat.not_lt (a := n), ← roundDiv_lt_iff]
      dsimp only
      omega
    · refine iff_of_true ?_ (integerBound_le_of_log2 hn hgt)
      omega

/-- Exactly the integers beyond the range of doubles have no double. -/
theorem ofInt?_eq_none_iff {i : Int} : ofInt? i = none ↔ integerBound ≤ i.natAbs := by
  rw [ofInt?, Option.map_eq_none_iff, ofRatio?_one_eq_none_iff]

end Integers

end FormulaEngine.Binary64

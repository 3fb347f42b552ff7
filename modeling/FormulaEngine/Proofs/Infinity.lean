import FormulaEngine.Function.Builtin
import Mathlib.Algebra.Group.Nat.Defs
/-!
# Infinite results

A double that is not infinite stays so when it is halved or multiplied by a small factor, and so
does an angle when it is turned into radians.

Doubles are followed through the steps of their arithmetic: an operation unpacks its operands to
significands and exponents, computes with those, rounds to 53 binary digits and packs the result. A
result is packed to an infinity if its exponent is above 971.
-/
namespace FormulaEngine.Binary64

open Float.Model Float.Model.UnpackedFloat

private theorem unpack_bounds {v : Float.Model} {s : Sign} {m : Nat} {e : Int} {hm : 0 < m}
    (h : v.unpack = .finite s m e hm) : m < 2 ^ 53 ∧ e ≤ 971 := by
  unfold Float.Model.unpack UnpackedFloat.unpack at h
  let fraction := @unpackMantissa Format.binary64 v.toBits.toBitVec
  let biased := @unpackExponent Format.binary64 v.toBits.toBitVec
  have hfraction : fraction.toNat < 2 ^ 52 := fraction.isLt
  have hbiased : biased.toNat < 2 ^ 11 := biased.isLt
  dsimp only at h
  by_cases hinfinite : biased = -1#11
  · rw [if_pos hinfinite] at h
    by_cases hzero : fraction = 0#52
    · rw [if_pos hzero] at h
      cases h
    · rw [if_neg hzero] at h
      cases h
  · have hb : biased.toNat ≠ 2047 := fun hb => hinfinite (BitVec.eq_of_toNat_eq hb)
    rw [if_neg hinfinite] at h
    by_cases hsubnormal : biased = 0#11
    · have hbz : biased.toNat = 0 := congrArg BitVec.toNat hsubnormal
      rw [if_pos hsubnormal] at h
      by_cases hzero : fraction = 0#52
      · rw [dif_pos hzero] at h
        cases h
      · rw [dif_neg hzero] at h
        cases h
        change fraction.toNat < 2 ^ 53 ∧ (biased.toNat : Int) - (1023 + 52) + 1 ≤ 971
        omega
    · rw [if_neg hsubnormal] at h
      cases h
      change (1#1 ++ fraction).toNat < 2 ^ 53 ∧ (biased.toNat : Int) - (1023 + 52) ≤ 971
      rw [BitVec.toNat_append, ← Nat.shiftLeft_add_eq_or_of_lt hfraction]
      change 2 ^ 52 + fraction.toNat < 2 ^ 53 ∧ _
      omega

private theorem isInf_unpack_packComponents (s : Sign) {b : BitVec 11} (f : BitVec 52)
    (hb : b ≠ -1#11) :
    (unpack Format.binary64 (packComponents Format.binary64 s b f)).isInf = false := by
  unfold UnpackedFloat.unpack
  rw [unpackExponent_packComponents]
  dsimp only
  rw [if_neg hb]
  by_cases hsubnormal : b = 0#11
  · rw [if_pos hsubnormal]
    by_cases hzero : f = 0#52
    · rw [dif_pos (unpackMantissa_packComponents.trans hzero)]
      rfl
    · rw [dif_neg fun h => hzero (unpackMantissa_packComponents.symm.trans h)]
      rfl
  · rw [if_neg hsubnormal]
    rfl

private theorem isInf_pack_finite {s : Sign} {m : Nat} {e : Int} {hm : 0 < m} (he : e ≤ 971) :
    (Float.Model.pack (.finite s m e hm)).isInf = false := by
  change (unpack Format.binary64 (pack Format.binary64 (.finite s m e hm))).isInf = false
  have hfits : ¬2 ^ Format.binary64.exponentBits ≤ (e + Format.binary64.exponentBias +
      Format.binary64.mantissaBitsWithoutImplicit).toNat + 1 := by
    change ¬2048 ≤ (e + (1023 : Nat) + (52 : Nat)).toNat + 1
    omega
  unfold UnpackedFloat.pack
  dsimp only
  rw [if_neg hfits]
  split
  · apply isInf_unpack_packComponents
    intro h
    have hb := congrArg BitVec.toNat h
    change (e + (1023 : Nat) + (52 : Nat)).toNat % 2 ^ 11 = 2047 at hb
    omega
  · exact isInf_unpack_packComponents s _ (by decide)

private theorem isInf_pack_zero (s : Sign) : (Float.Model.pack (.zero s)).isInf = false := by
  cases s <;> rfl

private theorem isInf_pack_notANumber : (Float.Model.pack .notANumber).isInf = false := rfl

private theorem log2_lt_of_lt {n k : Nat} (hk : 0 < k) (h : n < 2 ^ k) : n.log2 < k := by
  cases n with
  | zero => exact hk
  | succ n => exact (Nat.log2_lt (Nat.succ_ne_zero n)).mpr h

private theorem mantissa_shiftRight (em : ExtendedMantissa) (k : Nat) :
    (em >>> k).mantissa = em.mantissa / 2 ^ k := by
  change (Nat.repeat ExtendedMantissa.shiftRightOne k em).mantissa = _
  induction k with
  | zero => simp [Nat.repeat]
  | succ k ih =>
    change (Nat.repeat ExtendedMantissa.shiftRightOne k em).mantissa / 2 = _
    rw [ih, Nat.div_div_eq_div_mul, Nat.pow_succ]

private theorem roundedMantissa_le (em : ExtendedMantissa) :
    em.roundedMantissa ≤ em.mantissa + 1 := by
  obtain ⟨m, round, sticky⟩ := em
  cases round <;> cases sticky
  · exact Nat.le_succ m
  · exact Nat.le_succ m
  · exact Nat.add_le_add_left (Nat.lt_succ_iff.mp (Nat.mod_lt m (by decide))) m
  · exact Nat.le_refl _

section

variable {m : Nat} {e N : Int} {a : Accuracy}

private theorem targetExponent_totalExponent (m : Nat) (e : Int) :
    Format.binary64.targetExponent (totalExponent m e) = max (m.log2 + e - 52) (-1074) := by
  change max ((m.log2 : Int) + 1 + e - 53) (-1074) = _
  omega

private theorem shiftToTargetExponent_fst :
    (shiftToTargetExponent Format.binary64 m e a).1.mantissa < 2 ^ 53 := by
  let k := (Format.binary64.targetExponent (totalExponent m e) - e).toNat
  have hk : m.log2 ≤ 52 + k := by
    simp only [k, targetExponent_totalExponent]
    omega
  have hm : m < 2 ^ (53 + k) :=
    Nat.lt_of_lt_of_le Nat.lt_log2_self (Nat.pow_le_pow_right (by decide) (by omega))
  have hshift : (shiftToTargetExponent Format.binary64 m e a).1.mantissa = m / 2 ^ k := by
    change ((ExtendedMantissa.ofMantissaAndAccuracy m a) >>> k).mantissa = _
    rw [mantissa_shiftRight]
    cases a with
    | exact => rfl
    | inexact o => cases o <;> rfl
  rw [hshift]
  exact Nat.div_lt_of_lt_mul (by rwa [← Nat.pow_add, Nat.add_comm k])

private theorem shiftToTargetExponent_snd (hN : -1074 ≤ N) (he : e ≤ N) (hm : m.log2 + e ≤ N + 52) :
    (shiftToTargetExponent Format.binary64 m e a).2 ≤ N := by
  change e + (Format.binary64.targetExponent (totalExponent m e) - e).toNat ≤ N
  rw [targetExponent_totalExponent]
  omega

private theorem isInf_pack_roundWithAccuracy (s : Sign) (he : e ≤ 970) (hm : m.log2 + e ≤ 1022) :
    (Float.Model.pack (roundWithAccuracy Format.binary64 s m e a)).isInf = false := by
  have hexponent : (shiftToTargetExponent Format.binary64 m e a).2 ≤ 970 :=
    shiftToTargetExponent_snd (by decide) he hm
  have hmantissa : (shiftToTargetExponent Format.binary64 m e a).1.mantissa < 2 ^ 53 :=
    shiftToTargetExponent_fst
  unfold roundWithAccuracy
  generalize shiftToTargetExponent Format.binary64 m e a = first at *
  obtain ⟨em, e₁⟩ := first
  dsimp only at *
  have hrounded : em.roundedMantissa ≤ 2 ^ 53 :=
    Nat.le_trans (roundedMantissa_le em) hmantissa
  have hlog : em.roundedMantissa.log2 < 54 :=
    log2_lt_of_lt (by decide) (Nat.lt_of_le_of_lt hrounded (by decide))
  have hcarry : (shiftToTargetExponent Format.binary64 em.roundedMantissa e₁ .exact).2 ≤ 971 :=
    shiftToTargetExponent_snd (by decide) (by omega) (by omega)
  by_cases hzero :
      (shiftToTargetExponent Format.binary64 em.roundedMantissa e₁ .exact).1.mantissa = 0
  · rw [dif_pos hzero]
    exact isInf_pack_zero s
  · rw [dif_neg hzero]
    exact isInf_pack_finite hcarry

end

/-- A double that is not infinite, times a number of less than one half, is not infinite. -/
private theorem isInf_mul {x c : Float} {s : Sign} {m : Nat} {e : Int} {hm : 0 < m}
    (hc : c.toModel.unpack = .finite s m e hm) (he : e ≤ -54) (hx : x.isInf = false) :
    (x * c).isInf = false := by
  change (Float.Model.pack (UnpackedFloat.mul Format.binary64 x.toModel.unpack
    c.toModel.unpack)).isInf = false
  change x.toModel.unpack.isInf = false at hx
  rw [hc]
  cases hu : x.toModel.unpack with
  | infinity t =>
    rw [hu] at hx
    cases hx
  | notANumber => exact isInf_pack_notANumber
  | zero t => exact isInf_pack_zero _
  | finite t n f hn =>
    obtain ⟨hnsmall, hf⟩ := unpack_bounds hu
    obtain ⟨hmsmall, -⟩ := unpack_bounds hc
    have hproduct : (n * m).log2 < 106 := by
      apply log2_lt_of_lt (by decide)
      calc n * m < 2 ^ 53 * 2 ^ 53 := Nat.mul_lt_mul'' hnsmall hmsmall
        _ = 2 ^ 106 := by decide
    exact isInf_pack_roundWithAccuracy _ (by omega) (by omega)

private theorem divCore_two {n : Nat} {f : Int} (hn : n < 2 ^ 53) (hf : f ≤ 971) :
    let q := divCore Format.binary64 n f (2 ^ 52) (-51)
    q.2.1 ≤ 970 ∧ q.1.log2 + q.2.1 ≤ 1022 := by
  intro q
  let e := min (f - -51)
    (Format.binary64.targetExponent (totalExponent n f - totalExponent (2 ^ 52) (-51)))
  let k := (f - -51 - e).toNat
  have he : e ≤ 970 := by
    have hlog : n.log2 < 53 := log2_lt_of_lt (by decide) hn
    have htotal : totalExponent n f - totalExponent (2 ^ 52) (-51) ≤ 1022 := by
      simp only [totalExponent, Nat.log2_two_pow]
      omega
    have htarget : Format.binary64.targetExponent
        (totalExponent n f - totalExponent (2 ^ 52) (-51)) ≤ 970 := by
      change max (_ - 53) (-1074) ≤ 970
      omega
    exact Int.le_trans (Int.min_le_right _ _) htarget
  have hquotient : (n <<< k / 2 ^ 52).log2 < k + 1 := by
    apply log2_lt_of_lt (Nat.succ_pos k)
    rw [Nat.shiftLeft_eq]
    apply Nat.div_lt_of_lt_mul
    calc n * 2 ^ k < 2 ^ 53 * 2 ^ k := Nat.mul_lt_mul_of_pos_right hn (Nat.two_pow_pos k)
      _ = 2 ^ 52 * 2 ^ (k + 1) := by rw [← Nat.pow_add, ← Nat.pow_add]; congr 1; omega
  have hk : (k : Int) = f - -51 - e :=
    Int.toNat_of_nonneg (Int.sub_nonneg_of_le (Int.min_le_left _ _))
  change e ≤ 970 ∧ ((n <<< k / 2 ^ 52).log2 : Int) + e ≤ 1022
  omega

theorem isInf_half {x : Float} (hx : x.isInf = false) : (x / 2.0).isInf = false := by
  have htwo : (Float.toModel 2.0).unpack = .finite .positive (2 ^ 52) (-51) (by decide) := rfl
  change (Float.Model.pack (UnpackedFloat.div Format.binary64 x.toModel.unpack
    (Float.toModel 2.0).unpack)).isInf = false
  change x.toModel.unpack.isInf = false at hx
  rw [htwo]
  cases hu : x.toModel.unpack with
  | infinity t =>
    rw [hu] at hx
    cases hx
  | notANumber => exact isInf_pack_notANumber
  | zero t => exact isInf_pack_zero _
  | finite t n f hn =>
    obtain ⟨hnsmall, hf⟩ := unpack_bounds hu
    obtain ⟨he, hm⟩ := divCore_two hnsmall hf
    exact isInf_pack_roundWithAccuracy _ he hm

theorem isInf_radians {x : Float} (hx : x.isInf = false) : (Builtin.radians x).isInf = false := by
  have hfactor : (Float.toModel (3.141592653589793 / 180.0)).unpack =
      .finite .positive 5030569068109113 (-58) (by decide) := rfl
  exact isInf_mul hfactor (by decide) hx

end FormulaEngine.Binary64

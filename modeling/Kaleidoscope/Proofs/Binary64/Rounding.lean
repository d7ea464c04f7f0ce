import Mathlib.Tactic.Ring
import Kaleidoscope.Binary64.Rounding

/-!
# Rounding of exact values

The magnitude nearest to a quotient depends on the quotient alone, and a finite
magnitude is nearest to its own exact value.
-/

namespace Kaleidoscope
namespace Binary64

/-!
# Words of magnitudes
-/

theorem bits_ofMagnitude {m : Nat} (h : m ≤ infiniteMagnitude) :
    (ofMagnitude m).bits.toNat = m := by
  have hbound : infiniteMagnitude < 2 ^ 64 := by decide
  rw [ofMagnitude, UInt64.toNat_ofNat']
  exact Nat.mod_eq_of_lt (Nat.lt_of_le_of_lt h hbound)

theorem magnitude_ofMagnitude {m : Nat} (h : m ≤ infiniteMagnitude) :
    (ofMagnitude m).magnitude = m := by
  have hbound : infiniteMagnitude < signWeight := by decide
  rw [magnitude, bits_ofMagnitude h]
  exact Nat.mod_eq_of_lt (Nat.lt_of_le_of_lt h hbound)

theorem isNegative_ofMagnitude {m : Nat} (h : m ≤ infiniteMagnitude) :
    (ofMagnitude m).isNegative = false := by
  have hbound : infiniteMagnitude < signWeight := by decide
  rw [isNegative, bits_ofMagnitude h]
  exact decide_eq_false (Nat.not_le_of_lt (Nat.lt_of_le_of_lt h hbound))

theorem isNaN_ofMagnitude {m : Nat} (h : m ≤ infiniteMagnitude) :
    (ofMagnitude m).isNaN = false := by
  rw [isNaN, magnitude_ofMagnitude h]
  exact decide_eq_false (Nat.not_lt_of_le h)

theorem isInfinite_ofMagnitude {m : Nat} (h : m < infiniteMagnitude) :
    (ofMagnitude m).isInfinite = false := by
  rw [isInfinite, magnitude_ofMagnitude (Nat.le_of_lt h)]
  exact decide_eq_false (Nat.ne_of_lt h)

theorem sameValue_self {x : Binary64} (h : x.isNaN = false) :
    x.sameValue x = true := by
  rw [sameValue, h, beq_self_eq_true]
  rfl

/-!
# Quotients
-/

theorem divideToEven_mul_right (a b : Nat) {k : Nat} (hk : 0 < k) :
    divideToEven (a * k) (b * k) = divideToEven a b := by
  have hlow : 2 * (a % b * k) < b * k <-> 2 * (a % b) < b := by
    rw [← Nat.mul_assoc]
    exact Nat.mul_lt_mul_right hk
  have hhigh : b * k < 2 * (a % b * k) <-> b < 2 * (a % b) := by
    rw [← Nat.mul_assoc]
    exact Nat.mul_lt_mul_right hk
  simp only [divideToEven, Nat.mul_mod_mul_right, Nat.mul_div_mul_right a b hk, hlow,
    hhigh]

theorem divideToEven_mul_self (q : Nat) {b : Nat} (hb : 0 < b) :
    divideToEven (q * b) b = q := by
  rw [divideToEven, Nat.mul_mod_left, Nat.mul_zero, if_pos hb, Nat.mul_div_cancel q hb]

theorem droppedBits_mul_right (a b : Nat) {k : Nat} (hk : 0 < k) :
    droppedBits (a * k) (b * k) = droppedBits a b := by
  rw [droppedBits, droppedBits, Nat.mul_right_comm, Nat.mul_div_mul_right _ _ hk]

theorem nearestMagnitude_mul_right (a b : Nat) {k : Nat} (hk : 0 < k) :
    nearestMagnitude (a * k) (b * k) = nearestMagnitude a b := by
  simp only [nearestMagnitude, droppedBits_mul_right a b hk]
  rw [Nat.mul_right_comm a, Nat.mul_right_comm b, divideToEven_mul_right _ _ hk]

theorem nearestMagnitude_congr {a b c d : Nat} (hb : 0 < b) (hd : 0 < d)
    (h : a * d = c * b) : nearestMagnitude a b = nearestMagnitude c d := by
  calc nearestMagnitude a b
      = nearestMagnitude (a * d) (b * d) := (nearestMagnitude_mul_right a b hd).symm
    _ = nearestMagnitude (c * b) (d * b) := by rw [h, Nat.mul_comm b d]
    _ = nearestMagnitude c d := nearestMagnitude_mul_right c d hb

theorem nearestMagnitude_le (a b : Nat) : nearestMagnitude a b ≤ infiniteMagnitude :=
  Nat.min_le_left _ _

/-!
# Exact values
-/

theorem twoPow_pos (n : Nat) : 0 < Nat.pow 2 n :=
  Nat.two_pow_pos n

theorem one_pos : 0 < one := by
  unfold one
  apply twoPow_pos

theorem exponentWeight_pos : 0 < exponentWeight :=
  twoPow_pos 52

theorem log2_of_significand {significand : Nat} (dropped : Nat)
    (hlow : exponentWeight ≤ significand) (hhigh : significand < 2 * exponentWeight) :
    (significand * Nat.pow 2 dropped).log2 = 52 + dropped := by
  have hpow : 0 < 2 ^ dropped := Nat.two_pow_pos dropped
  have hne : significand * 2 ^ dropped ≠ 0 :=
    Nat.mul_ne_zero (Nat.ne_of_gt (Nat.lt_of_lt_of_le exponentWeight_pos hlow))
      (Nat.ne_of_gt hpow)
  refine (Nat.log2_eq_iff hne).mpr ⟨?_, ?_⟩
  · rw [Nat.pow_add]
    exact Nat.mul_le_mul_right _ hlow
  · have hdouble : 2 ^ (52 + dropped + 1) = 2 * exponentWeight * 2 ^ dropped := by
      rw [Nat.pow_succ, Nat.pow_add, Nat.mul_comm _ 2, ← Nat.mul_assoc]
      rfl
    rw [hdouble]
    exact Nat.mul_lt_mul_of_pos_right hhigh hpow

theorem log2_of_small {significand : Nat} (h : significand < 2 * exponentWeight) :
    significand.log2 ≤ 52 := by
  by_cases hzero : significand = 0
  · rw [hzero]
    decide
  · exact Nat.le_of_lt_succ ((Nat.log2_lt hzero).mpr h)

theorem nearestMagnitude_of_significand {significand dropped : Nat}
    (hlow : dropped = 0 ∨ exponentWeight ≤ significand)
    (hhigh : significand < 2 * exponentWeight) :
    nearestMagnitude (significand * Nat.pow 2 dropped) one =
      min infiniteMagnitude (dropped * exponentWeight + significand) := by
  have hpow := twoPow_pos dropped
  have hdropped : droppedBits (significand * Nat.pow 2 dropped) one = dropped := by
    rw [droppedBits, Nat.mul_div_cancel _ one_pos]
    rcases hlow with hzero | hlow
    · rw [hzero]
      show (significand * 1).log2 - 52 = 0
      rw [Nat.mul_one]
      exact Nat.sub_eq_zero_of_le (log2_of_small hhigh)
    · rw [log2_of_significand dropped hlow hhigh, Nat.add_sub_cancel_left]
  have hexact : significand * Nat.pow 2 dropped * one =
      significand * (one * Nat.pow 2 dropped) := by
    rw [Nat.mul_assoc, Nat.mul_comm (Nat.pow 2 dropped)]
  simp only [nearestMagnitude, hdropped, hexact]
  rw [divideToEven_mul_self _ (Nat.mul_pos one_pos hpow)]

/-!
# The grid of numbers

Between two powers of two the numbers are evenly spaced, and the spacing doubles
from each binade to the next.
-/

theorem unitsOf_of_lt {m : Nat} (h : m < exponentWeight) : unitsOf m = m :=
  if_pos h

theorem unitsOf_binade (exponent : Nat) {fraction : Nat} (h : fraction < exponentWeight) :
    unitsOf ((exponent + 1) * exponentWeight + fraction) =
      (exponentWeight + fraction) * Nat.pow 2 exponent := by
  have hlarge : ¬ (exponent + 1) * exponentWeight + fraction < exponentWeight := by
    rw [Nat.succ_mul]
    omega
  have hmod : ((exponent + 1) * exponentWeight + fraction) % exponentWeight = fraction := by
    rw [Nat.mul_add_mod_of_lt h]
  have hdiv : ((exponent + 1) * exponentWeight + fraction) / exponentWeight =
      exponent + 1 := by
    rw [Nat.mul_comm, Nat.mul_add_div exponentWeight_pos, Nat.div_eq_of_lt h,
      Nat.add_zero]
  rw [unitsOf, if_neg hlarge, hmod, hdiv, Nat.add_sub_cancel]

theorem unitsOf_grid {dropped significand : Nat}
    (hlow : dropped = 0 ∨ exponentWeight ≤ significand)
    (hhigh : significand ≤ 2 * exponentWeight) :
    unitsOf (dropped * exponentWeight + significand) =
      significand * Nat.pow 2 dropped := by
  rcases Nat.lt_or_ge significand exponentWeight with hsmall | hnormal
  · have hzero : dropped = 0 := hlow.resolve_right (Nat.not_le_of_lt hsmall)
    rw [hzero, Nat.zero_mul, Nat.zero_add, unitsOf_of_lt hsmall]
    exact (Nat.mul_one significand).symm
  · rcases Nat.lt_or_eq_of_le hhigh with hinside | hend
    · have hfraction : significand - exponentWeight < exponentWeight := by omega
      have hsame : dropped * exponentWeight + significand =
          (dropped + 1) * exponentWeight + (significand - exponentWeight) := by
        rw [Nat.succ_mul]
        omega
      rw [hsame, unitsOf_binade dropped hfraction, Nat.add_sub_cancel' hnormal]
    · have hsame : dropped * exponentWeight + significand =
          (dropped + 1 + 1) * exponentWeight + 0 := by
        rw [hend]
        ring
      have hdouble : Nat.pow 2 (dropped + 1) = 2 * Nat.pow 2 dropped := Nat.pow_succ'
      rw [hsame, unitsOf_binade (dropped + 1) exponentWeight_pos, hdouble, hend]
      ring

/-- Every magnitude is an exponent with a significand of 53 bits. -/
theorem exists_grid (m : Nat) : exists dropped significand,
    m = dropped * exponentWeight + significand ∧
      (dropped = 0 ∨ exponentWeight ≤ significand) ∧
        significand < 2 * exponentWeight := by
  have hmod := Nat.mod_lt m exponentWeight_pos
  have hsum := Nat.div_add_mod' m exponentWeight
  rcases Nat.eq_zero_or_pos (m / exponentWeight) with hzero | hpos
  · refine ⟨0, m, by omega, Or.inl rfl, ?_⟩
    rw [hzero] at hsum
    omega
  · refine ⟨m / exponentWeight - 1, exponentWeight + m % exponentWeight, ?_,
      Or.inr (Nat.le_add_right _ _), by omega⟩
    rw [← Nat.add_assoc, ← Nat.succ_mul, Nat.succ_eq_add_one, Nat.sub_add_cancel hpos, hsum]

/-- A finite magnitude is nearest to its own exact value. -/
theorem nearestMagnitude_unitsOf {m : Nat} (h : m < infiniteMagnitude) :
    nearestMagnitude (unitsOf m) one = m := by
  rcases exists_grid m with ⟨dropped, significand, hm, hlow, hhigh⟩
  have hunits : unitsOf m = significand * Nat.pow 2 dropped := by
    rw [hm]
    exact unitsOf_grid hlow (Nat.le_of_lt hhigh)
  rw [hunits, nearestMagnitude_of_significand hlow hhigh, ← hm]
  exact Nat.min_eq_right (Nat.le_of_lt h)

end Binary64
end Kaleidoscope

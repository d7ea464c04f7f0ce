import Mathlib.Algebra.Order.Field.Basic
import Mathlib.Algebra.Order.Ring.Rat
import Mathlib.Order.Monotone.Basic
import Mathlib.Tactic.FieldSimp
import Mathlib.Tactic.Linarith
import Kaleidoscope.Proofs.Binary64.Rounding

/-!
# Nearest numbers

Between two powers of two the numbers are evenly spaced, and the spacing doubles
from each binade to the next.  A quotient is rounded on the spacing of its own
binade, so the result is no farther from it than any other number, and its last
bit is clear if another one is equally near.
-/

namespace Kaleidoscope
namespace Binary64

theorem unitsOf_strictMono : StrictMono unitsOf := by
  apply strictMono_nat_of_lt_succ
  intro m
  rcases exists_grid m with ⟨dropped, significand, hm, hlow, hhigh⟩
  have hnext : m + 1 = dropped * exponentWeight + (significand + 1) := by omega
  have hlow' : dropped = 0 ∨ exponentWeight ≤ significand + 1 :=
    hlow.imp_right Nat.le_succ_of_le
  rw [hnext, hm, unitsOf_grid hlow (Nat.le_of_lt hhigh), unitsOf_grid hlow' hhigh]
  exact Nat.mul_lt_mul_of_pos_right (Nat.lt_succ_self significand) (twoPow_pos dropped)

theorem dvd_unitsOf_or_lt (dropped m : Nat) :
    Nat.pow 2 dropped ∣ unitsOf m ∨ unitsOf m < exponentWeight * Nat.pow 2 dropped := by
  rcases exists_grid m with ⟨own, significand, hm, hlow, hhigh⟩
  rw [hm, unitsOf_grid hlow (Nat.le_of_lt hhigh)]
  rcases Nat.lt_or_ge own dropped with hfine | hcoarse
  · right
    have hstep : Nat.pow 2 (own + 1) ≤ Nat.pow 2 dropped :=
      Nat.pow_le_pow_right Nat.two_pos hfine
    calc significand * Nat.pow 2 own
        < 2 * exponentWeight * Nat.pow 2 own :=
          Nat.mul_lt_mul_of_pos_right hhigh (twoPow_pos own)
      _ = exponentWeight * Nat.pow 2 (own + 1) := by
          rw [show Nat.pow 2 (own + 1) = 2 * Nat.pow 2 own from Nat.pow_succ']
          ring
      _ ≤ exponentWeight * Nat.pow 2 dropped := Nat.mul_le_mul_left _ hstep
  · exact Or.inl (Nat.dvd_mul_left_of_dvd (Nat.pow_dvd_pow 2 hcoarse) significand)

/-!
# Nearest whole numbers
-/

theorem div_le_divideToEven (a b : Nat) : a / b ≤ divideToEven a b := by
  unfold divideToEven
  split
  · exact Nat.le_refl _
  · split <;> exact Nat.le_add_right _ _

theorem divideToEven_le_div (a b : Nat) : divideToEven a b ≤ a / b + 1 := by
  unfold divideToEven
  split
  · exact Nat.le_succ _
  · split
    · exact Nat.le_refl _
    · exact Nat.add_le_add_left (Nat.le_of_lt_succ (Nat.mod_lt _ Nat.two_pos)) _

theorem divideToEven_close (a : Nat) {b : Nat} (hb : 0 < b) :
    |(a : ℚ) / b - divideToEven a b| ≤ 1 / 2 ∧
      (|(a : ℚ) / b - divideToEven a b| = 1 / 2 -> divideToEven a b % 2 = 0) := by
  have hb' : (0 : ℚ) < b := Nat.cast_pos.mpr hb
  have hsplit : (a : ℚ) / b = (a / b : Nat) + (a % b : Nat) / b := by
    rw [div_eq_iff hb'.ne', add_mul, div_mul_cancel₀ _ hb'.ne']
    exact_mod_cast (Nat.div_add_mod' a b).symm
  have hnonneg : (0 : ℚ) ≤ (a % b : Nat) / b := by positivity
  have hbelow : ((a % b : Nat) : ℚ) / b < 1 := by
    rw [div_lt_one hb']
    exact_mod_cast Nat.mod_lt a hb
  have hlower : ((a % b : Nat) : ℚ) / b < 1 / 2 <-> 2 * (a % b) < b := by
    rw [div_lt_div_iff₀ hb' two_pos, one_mul, mul_comm]
    exact_mod_cast Iff.rfl
  have hupper : 1 / 2 < ((a % b : Nat) : ℚ) / b <-> b < 2 * (a % b) := by
    rw [div_lt_div_iff₀ two_pos hb', one_mul, mul_comm]
    exact_mod_cast Iff.rfl
  generalize ((a % b : Nat) : ℚ) / b = rest at hsplit hnonneg hbelow hlower hupper
  rw [hsplit, divideToEven]
  split
  · next h =>
      have hrest := hlower.mpr h
      rw [add_sub_cancel_left, abs_of_nonneg hnonneg]
      exact ⟨hrest.le, fun hhalf => absurd hhalf hrest.ne⟩
  · split
    · next h =>
        have hrest := hupper.mpr h
        push_cast
        rw [add_sub_add_left_eq_sub, abs_of_nonpos (by linarith)]
        exact ⟨by linarith, fun hhalf => by linarith⟩
    · next h h' =>
        -- halfway between two whole numbers, of which one is even
        have hrest : rest = 1 / 2 :=
          le_antisymm (not_lt.mp fun hlt => h' (hupper.mp hlt))
            (not_lt.mp fun hlt => h (hlower.mp hlt))
        rw [hrest]
        rcases Nat.mod_two_eq_zero_or_one (a / b) with heven | hodd
        · rw [heven, Nat.add_zero, add_sub_cancel_left]
          exact ⟨by norm_num, fun _ => heven⟩
        · rw [hodd]
          push_cast
          rw [add_sub_add_left_eq_sub]
          exact ⟨by norm_num, fun _ => by omega⟩

theorem closest_of_close {x : ℚ} {n : Nat} (hclose : |x - n| ≤ 1 / 2)
    (heven : |x - n| = 1 / 2 -> n % 2 = 0) (k : Nat) :
    |x - n| ≤ |x - k| ∧ (k ≠ n -> |x - n| = |x - k| -> n % 2 = 0) := by
  rcases eq_or_ne k n with hsame | hne
  · rw [hsame]
    exact ⟨le_refl _, fun h => absurd rfl h⟩
  · have hapart : (1 : ℚ) ≤ |(n : ℚ) - k| := by
      have hint : (n : Int) - k ≠ 0 := by omega
      exact_mod_cast Int.one_le_abs hint
    have htriangle : |(n : ℚ) - k| ≤ |x - n| + |x - k| := by
      rw [abs_sub_comm x n]
      exact abs_sub_le _ _ _
    exact ⟨by linarith, fun _ htie => heven (by linarith)⟩

/-!
# Rounding in units
-/

theorem droppedBits_low (a : Nat) {b : Nat} (hb : 0 < b) :
    droppedBits a b = 0 ∨
      exponentWeight * Nat.pow 2 (droppedBits a b) * b ≤ a * one := by
  rcases Nat.eq_zero_or_pos (droppedBits a b) with hzero | hpos
  · exact Or.inl hzero
  · right
    have hlog : (a * one / b).log2 = 52 + droppedBits a b := by
      unfold droppedBits at hpos ⊢
      omega
    have hne : a * one / b ≠ 0 := by
      intro hzero
      rw [hzero, Nat.log2_zero] at hlog
      omega
    have hpow : exponentWeight * Nat.pow 2 (droppedBits a b) =
        2 ^ (a * one / b).log2 := by
      rw [hlog, Nat.pow_add]
      rfl
    rw [← Nat.le_div_iff_mul_le hb, hpow]
    exact Nat.log2_self_le hne

theorem droppedBits_high (a : Nat) {b : Nat} (hb : 0 < b) :
    a * one < 2 * exponentWeight * Nat.pow 2 (droppedBits a b) * b := by
  have hle : (a * one / b).log2 + 1 ≤ 53 + droppedBits a b := by
    unfold droppedBits
    omega
  have hpow : 2 ^ (53 + droppedBits a b) =
      2 * exponentWeight * Nat.pow 2 (droppedBits a b) := by
    rw [Nat.pow_add]
    rfl
  rw [← Nat.div_lt_iff_lt_mul hb, ← hpow]
  exact Nat.lt_of_lt_of_le Nat.lt_log2_self (Nat.pow_le_pow_right Nat.two_pos hle)

def roundedSignificand (a b : Nat) : Nat :=
  divideToEven (a * one) (b * Nat.pow 2 (droppedBits a b))

theorem nearestMagnitude_eq (a b : Nat) :
    nearestMagnitude a b =
      min infiniteMagnitude (droppedBits a b * exponentWeight + roundedSignificand a b) :=
  rfl

theorem roundedSignificand_low (a : Nat) {b : Nat} (hb : 0 < b) :
    droppedBits a b = 0 ∨ exponentWeight ≤ roundedSignificand a b := by
  refine (droppedBits_low a hb).imp_right fun hlow => ?_
  refine Nat.le_trans ?_ (div_le_divideToEven _ _)
  rw [Nat.le_div_iff_mul_le (Nat.mul_pos hb (twoPow_pos _)), Nat.mul_comm b, ← Nat.mul_assoc]
  exact hlow

theorem roundedSignificand_high (a : Nat) {b : Nat} (hb : 0 < b) :
    roundedSignificand a b ≤ 2 * exponentWeight := by
  refine Nat.le_trans (divideToEven_le_div _ _) (Nat.succ_le_of_lt ?_)
  rw [Nat.div_lt_iff_lt_mul (Nat.mul_pos hb (twoPow_pos _)), Nat.mul_comm b, ← Nat.mul_assoc]
  exact droppedBits_high a hb

/-- One magnitude is as near to a number of units as another, and even in a tie. -/
structure Beats (units : ℚ) (n m : Nat) : Prop where
  near : |units - unitsOf n| ≤ |units - unitsOf m|
  even : m ≠ n -> |units - unitsOf n| = |units - unitsOf m| -> n % 2 = 0

theorem beats_self (units : ℚ) (n : Nat) : Beats units n n :=
  ⟨le_refl _, fun hne => absurd rfl hne⟩

theorem beats_of_nearer {units : ℚ} {n m : Nat}
    (h : |units - unitsOf n| < |units - unitsOf m|) : Beats units n m :=
  ⟨h.le, fun _ htie => absurd htie h.ne⟩

theorem nearer_of_le {x near far : ℚ} (hfar : far < near) (hnear : near ≤ x) :
    |x - near| < |x - far| := by
  rw [abs_of_nonneg (sub_nonneg.mpr hnear),
    abs_of_nonneg (sub_nonneg.mpr (hfar.le.trans hnear))]
  exact sub_lt_sub_left hfar x

theorem mul_exponentWeight_add_mod_two (dropped significand : Nat) :
    (dropped * exponentWeight + significand) % 2 = significand % 2 := by
  have heven : exponentWeight = 2 ^ 51 * 2 := rfl
  rw [heven, ← Nat.mul_assoc, Nat.mul_add_mod_self_right]

theorem roundedSignificand_near (a : Nat) {b : Nat} (hb : 0 < b) (k : Nat) :
    |(a * one : Nat) / (b : ℚ) -
        (roundedSignificand a b * Nat.pow 2 (droppedBits a b) : Nat)| ≤
      |(a * one : Nat) / (b : ℚ) - (k * Nat.pow 2 (droppedBits a b) : Nat)| ∧
    (k ≠ roundedSignificand a b ->
      |(a * one : Nat) / (b : ℚ) -
          (roundedSignificand a b * Nat.pow 2 (droppedBits a b) : Nat)| =
        |(a * one : Nat) / (b : ℚ) - (k * Nat.pow 2 (droppedBits a b) : Nat)| ->
      roundedSignificand a b % 2 = 0) := by
  have hspacing : (0 : ℚ) < (Nat.pow 2 (droppedBits a b) : Nat) :=
    Nat.cast_pos.mpr (twoPow_pos _)
  have hscaled : forall n : Nat,
      |(a * one : Nat) / (b : ℚ) - (n * Nat.pow 2 (droppedBits a b) : Nat)| =
        |(a * one : Nat) / ((b * Nat.pow 2 (droppedBits a b) : Nat) : ℚ) - n| *
          (Nat.pow 2 (droppedBits a b) : Nat) := by
    intro n
    conv_rhs => rw [← abs_of_pos hspacing, ← abs_mul]
    rw [sub_mul, Nat.cast_mul b, ← div_div, div_mul_cancel₀ _ hspacing.ne', Nat.cast_mul n]
  have hclose := divideToEven_close (a * one) (Nat.mul_pos hb (twoPow_pos (droppedBits a b)))
  rcases closest_of_close hclose.left hclose.right k with ⟨hnear, heven⟩
  rw [hscaled, hscaled]
  constructor
  · exact mul_le_mul_of_nonneg_right hnear hspacing.le
  · intro hne htie
    exact heven hne (mul_right_cancel₀ hspacing.ne' htie)

theorem grid_beats (a : Nat) {b : Nat} (hb : 0 < b) (m : Nat) :
    Beats ((a * one : Nat) / b)
      (droppedBits a b * exponentWeight + roundedSignificand a b) m := by
  have hunits := unitsOf_grid (roundedSignificand_low a hb) (roundedSignificand_high a hb)
  have hnear := roundedSignificand_near a hb
  by_cases hmultiple : Nat.pow 2 (droppedBits a b) ∣ unitsOf m
  · rcases hmultiple with ⟨k, hk⟩
    rw [Nat.mul_comm] at hk
    constructor
    · rw [hunits, hk]
      exact (hnear k).left
    · intro hne htie
      rw [mul_exponentWeight_add_mod_two]
      rw [hunits, hk] at htie
      refine (hnear k).right (fun hsame => hne ?_) htie
      rw [hsame, ← hunits] at hk
      exact unitsOf_strictMono.injective hk
  · -- a number with a finer spacing lies below the whole binade of the quotient
    have hfine := (dvd_unitsOf_or_lt (droppedBits a b) m).resolve_left hmultiple
    have hlow : exponentWeight * Nat.pow 2 (droppedBits a b) * b ≤ a * one := by
      refine (droppedBits_low a hb).resolve_left fun hzero => hmultiple ?_
      rw [hzero]
      exact Nat.one_dvd _
    have hbinade : ((exponentWeight * Nat.pow 2 (droppedBits a b) : Nat) : ℚ) ≤
        (a * one : Nat) / b := by
      rw [le_div_iff₀ (Nat.cast_pos.mpr hb)]
      exact_mod_cast hlow
    have hfine' : (unitsOf m : ℚ) < (exponentWeight * Nat.pow 2 (droppedBits a b) : Nat) :=
      Nat.cast_lt.mpr hfine
    apply beats_of_nearer
    rw [hunits]
    exact lt_of_le_of_lt (hnear exponentWeight).left (nearer_of_le hfine' hbinade)

theorem unitsOf_infiniteMagnitude_le {a b : Nat} (hb : 0 < b)
    (h : infiniteMagnitude < droppedBits a b * exponentWeight + roundedSignificand a b) :
    (unitsOf infiniteMagnitude : ℚ) ≤ (a * one : Nat) / b := by
  have hhigh := roundedSignificand_high a hb
  have hinfinite : infiniteMagnitude = 2047 * exponentWeight := rfl
  have hmany : 2045 * exponentWeight < droppedBits a b * exponentWeight := by omega
  have hdropped : 2046 ≤ droppedBits a b := Nat.lt_of_mul_lt_mul_right hmany
  have hlow := (droppedBits_low a hb).resolve_left (by omega)
  have hplace : unitsOf infiniteMagnitude ≤
      exponentWeight * Nat.pow 2 (droppedBits a b) := by
    have hbinade : infiniteMagnitude ≤ (droppedBits a b + 1) * exponentWeight + 0 := by
      rw [hinfinite, Nat.add_zero]
      exact Nat.mul_le_mul_right exponentWeight (by omega)
    calc unitsOf infiniteMagnitude
        ≤ unitsOf ((droppedBits a b + 1) * exponentWeight + 0) :=
          unitsOf_strictMono.monotone hbinade
      _ = exponentWeight * Nat.pow 2 (droppedBits a b) :=
          unitsOf_binade _ exponentWeight_pos
  rw [le_div_iff₀ (Nat.cast_pos.mpr hb)]
  exact_mod_cast Nat.le_trans (Nat.mul_le_mul_right b hplace) hlow

theorem nearestMagnitude_beats (a : Nat) {b m : Nat} (hb : 0 < b)
    (hm : m ≤ infiniteMagnitude) :
    Beats ((a * one : Nat) / b) (nearestMagnitude a b) m := by
  rw [nearestMagnitude_eq]
  rcases le_or_gt (droppedBits a b * exponentWeight + roundedSignificand a b)
    infiniteMagnitude with hinside | hbeyond
  · rw [Nat.min_eq_right hinside]
    exact grid_beats a hb m
  · rw [Nat.min_eq_left hbeyond.le]
    have hle := unitsOf_infiniteMagnitude_le hb hbeyond
    rcases Nat.lt_or_eq_of_le hm with hless | hsame
    · exact beats_of_nearer (nearer_of_le (Nat.cast_lt.mpr (unitsOf_strictMono hless)) hle)
    · rw [hsame]
      exact beats_self _ _

/-- Two magnitudes cannot both be as near as everything up to infinity. -/
theorem not_beats_of_lt {units : ℚ} {low high : Nat} (hlt : low < high)
    (hhigh : high ≤ infiniteMagnitude)
    (hlow_beats : forall m, m ≤ infiniteMagnitude -> Beats units low m) :
    ¬ forall m, m ≤ infiniteMagnitude -> Beats units high m := by
  intro hhigh_beats
  have hlow := hlow_beats high hhigh
  have hup := hhigh_beats low (by omega)
  have htie := le_antisymm hlow.near hup.near
  have heven := hlow.even (Nat.ne_of_gt hlt) htie
  have heven' := hup.even (Nat.ne_of_lt hlt) htie.symm
  -- between two even magnitudes there is an odd one, and it is nearer
  have hbetween := (hlow_beats (low + 1) (by omega)).near
  have hbelow : (unitsOf low : ℚ) < unitsOf (low + 1) :=
    Nat.cast_lt.mpr (unitsOf_strictMono (Nat.lt_succ_self low))
  have habove : (unitsOf (low + 1) : ℚ) < unitsOf high :=
    Nat.cast_lt.mpr (unitsOf_strictMono (by omega))
  grind

theorem eq_of_beats {units : ℚ} {n n' : Nat} (hn : n ≤ infiniteMagnitude)
    (hn' : n' ≤ infiniteMagnitude)
    (h : forall m, m ≤ infiniteMagnitude -> Beats units n m)
    (h' : forall m, m ≤ infiniteMagnitude -> Beats units n' m) : n = n' := by
  rcases Nat.lt_trichotomy n n' with hlt | heq | hgt
  · exact (not_beats_of_lt hlt hn' h h').elim
  · exact heq
  · exact (not_beats_of_lt hgt hn h' h).elim

/-!
# Overflow
-/

/-- The last two places of the grid.  The exponent is a variable, so that its power is
never evaluated. -/
theorem unitsOf_last {dropped : Nat} (h : dropped = 2045) :
    unitsOf (infiniteMagnitude - 1) = (2 * exponentWeight - 1) * Nat.pow 2 dropped ∧
      unitsOf infiniteMagnitude = 2 * exponentWeight * Nat.pow 2 dropped := by
  have hweight := exponentWeight_pos
  have hinfinite : infiniteMagnitude = 2047 * exponentWeight := rfl
  have hlast : infiniteMagnitude - 1 =
      dropped * exponentWeight + (2 * exponentWeight - 1) := by
    rw [h, hinfinite]
    omega
  have hnext : infiniteMagnitude = dropped * exponentWeight + 2 * exponentWeight := by
    rw [h, hinfinite]
    omega
  constructor
  · rw [hlast]
    exact unitsOf_grid (Or.inr (by omega)) (Nat.sub_le _ _)
  · rw [hnext]
    exact unitsOf_grid (Or.inr (by omega)) (Nat.le_refl _)

theorem overflow_halfway :
    (unitsOf (infiniteMagnitude - 1) : ℚ) + unitsOf infiniteMagnitude =
      2 * ((2 ^ 1024 - 2 ^ 970) * one) := by
  have hweight : (exponentWeight : ℚ) = 2 ^ 52 := by norm_num [exponentWeight]
  have hpow : forall n, ((Nat.pow 2 n : Nat) : ℚ) = 2 ^ n := fun n => Nat.cast_pow 2 n
  have hone : (one : ℚ) = 2 ^ 1074 := by
    unfold one
    exact hpow 1074
  obtain ⟨dropped, hdropped⟩ : exists dropped, dropped = 2045 := ⟨_, rfl⟩
  have hspacing : ((Nat.pow 2 dropped : Nat) : ℚ) = 2 * 2 ^ 970 * 2 ^ 1074 := by
    have hsplit : dropped = 970 + 1 + 1074 := hdropped
    rw [hpow, hsplit, pow_add, pow_succ']
  have hlarge : (2 : ℚ) ^ 1024 = 2 ^ 54 * 2 ^ 970 := by
    rw [← pow_add]
  have hposition : ((2 * exponentWeight - 1 : Nat) : ℚ) = 2 * exponentWeight - 1 := by
    rw [Nat.cast_sub (by have := exponentWeight_pos; omega)]
    push_cast
    ring
  rw [(unitsOf_last hdropped).left, (unitsOf_last hdropped).right, Nat.cast_mul,
    Nat.cast_mul, hspacing, hposition, Nat.cast_mul, hweight, hone, hlarge]
  -- the large powers stay symbolic
  generalize (2 : ℚ) ^ 970 = threshold
  generalize (2 : ℚ) ^ 1074 = units
  ring

/-- Rounding overflows from halfway past the largest number on. -/
theorem eq_infiniteMagnitude_iff {units : ℚ} {n : Nat} (hn : n ≤ infiniteMagnitude)
    (h : forall m, m ≤ infiniteMagnitude -> Beats units n m) :
    n = infiniteMagnitude <->
      (unitsOf (infiniteMagnitude - 1) : ℚ) + unitsOf infiniteMagnitude ≤ 2 * units := by
  have hpos : 0 < infiniteMagnitude := by decide
  have hodd : (infiniteMagnitude - 1) % 2 = 1 := by decide
  have hlast : (unitsOf (infiniteMagnitude - 1) : ℚ) < unitsOf infiniteMagnitude :=
    Nat.cast_lt.mpr (unitsOf_strictMono (Nat.sub_lt hpos Nat.one_pos))
  constructor
  · intro heq
    have hnear := (h (infiniteMagnitude - 1) (Nat.sub_le _ _)).near
    rw [heq] at hnear
    grind
  · intro hlarge
    by_contra hne
    have hlt : n < infiniteMagnitude := Nat.lt_of_le_of_ne hn hne
    have hplace : (unitsOf n : ℚ) ≤ unitsOf (infiniteMagnitude - 1) :=
      Nat.cast_le.mpr (unitsOf_strictMono.monotone (by omega))
    have hbeats := h infiniteMagnitude (Nat.le_refl _)
    have htie : |units - unitsOf n| = |units - unitsOf infiniteMagnitude| ∧
        (unitsOf n : ℚ) = unitsOf (infiniteMagnitude - 1) := by
      have hnear := hbeats.near
      grind
    have heven := hbeats.even (Ne.symm hne) htie.left
    have hsame : n = infiniteMagnitude - 1 :=
      unitsOf_strictMono.injective (Nat.cast_injective htie.right)
    omega

/-!
# Nearest numbers

Infinity stands at the place where the next number would be if the exponent
had no bound, which is where rounding overflows to it.
-/

def toRational (x : Binary64) : ℚ :=
  (if x.isNegative then -1 else 1) * (unitsOf x.magnitude / one)

/-- No number is nearer to `q`, and in a tie the last bit is clear. -/
structure IsNearest (x : Binary64) (q : ℚ) : Prop where
  number : x.isNaN = false
  positive : x.isNegative = false
  near (y : Binary64) : y.isNaN = false -> |q - x.toRational| ≤ |q - y.toRational|
  even (y : Binary64) : y.isNaN = false -> y.magnitude ≠ x.magnitude ->
    |q - x.toRational| = |q - y.toRational| -> x.magnitude % 2 = 0

theorem toRational_of_positive {x : Binary64} (h : x.isNegative = false) :
    x.toRational = unitsOf x.magnitude / one := by
  rw [toRational, h, if_neg Bool.false_ne_true, one_mul]

theorem magnitude_le_of_number {x : Binary64} (h : x.isNaN = false) :
    x.magnitude ≤ infiniteMagnitude :=
  Nat.le_of_not_lt (of_decide_eq_false h)

theorem ofMagnitude_magnitude {x : Binary64} (h : x.isNegative = false) :
    ofMagnitude x.magnitude = x := by
  have hlt : x.bits.toNat < signWeight := Nat.lt_of_not_le (of_decide_eq_false h)
  rw [magnitude, Nat.mod_eq_of_lt hlt, ofMagnitude, UInt64.ofNat_toNat]

theorem one_cast_pos : (0 : ℚ) < one :=
  Nat.cast_pos.mpr one_pos

theorem abs_sub_units (q units : ℚ) :
    |q - units / one| = |q * one - units| / one := by
  rw [← abs_of_pos one_cast_pos, ← abs_div, abs_of_pos one_cast_pos, sub_div,
    mul_div_cancel_right₀ _ one_cast_pos.ne']

theorem abs_sub_toRational_of_negative {q : ℚ} (hq : 0 ≤ q) (y : Binary64) :
    |q - unitsOf y.magnitude / one| ≤ |q - y.toRational| := by
  have hnonneg : (0 : ℚ) ≤ unitsOf y.magnitude / one := by positivity
  unfold toRational
  generalize (unitsOf y.magnitude : ℚ) / one = value at hnonneg
  split
  · rw [neg_one_mul, sub_neg_eq_add, abs_of_nonneg (add_nonneg hq hnonneg)]
    exact abs_sub_le_iff.mpr ⟨by linarith, by linarith⟩
  · rw [one_mul]

/-- A magnitude that nothing up to infinity beats is that of the nearest number. -/
theorem isNearest_ofMagnitude {q : ℚ} (hq : 0 ≤ q) {n : Nat} (hn : n ≤ infiniteMagnitude)
    (h : forall m, m ≤ infiniteMagnitude -> Beats (q * one) n m) :
    (ofMagnitude n).IsNearest q := by
  have hvalue : (ofMagnitude n).toRational = unitsOf n / one := by
    rw [toRational_of_positive (isNegative_ofMagnitude hn), magnitude_ofMagnitude hn]
  have hnear : forall y : Binary64, y.isNaN = false ->
      |q - unitsOf n / one| ≤ |q - unitsOf y.magnitude / one| := by
    intro y hy
    rw [abs_sub_units, abs_sub_units]
    exact div_le_div_of_nonneg_right (h _ (magnitude_le_of_number hy)).near one_cast_pos.le
  constructor
  · exact isNaN_ofMagnitude hn
  · exact isNegative_ofMagnitude hn
  · intro y hy
    rw [hvalue]
    exact le_trans (hnear y hy) (abs_sub_toRational_of_negative hq y)
  · intro y hy hne htie
    rw [magnitude_ofMagnitude hn] at hne ⊢
    rw [hvalue] at htie
    have hsame : |q - unitsOf n / one| = |q - unitsOf y.magnitude / one| :=
      le_antisymm (hnear y hy) (htie ▸ abs_sub_toRational_of_negative hq y)
    rw [abs_sub_units, abs_sub_units] at hsame
    exact (h _ (magnitude_le_of_number hy)).even hne 
      ((div_left_inj' one_cast_pos.ne').mp hsame)

namespace IsNearest

variable {q : ℚ} {x : Binary64}

theorem beats (h : x.IsNearest q) {m : Nat} (hm : m ≤ infiniteMagnitude) :
    Beats (q * one) x.magnitude m := by
  have hvalue := toRational_of_positive h.positive
  have hother : (ofMagnitude m).toRational = unitsOf m / one := by
    rw [toRational_of_positive (isNegative_ofMagnitude hm), magnitude_ofMagnitude hm]
  have hnumber := isNaN_ofMagnitude hm
  constructor
  · have hnear := h.near _ hnumber
    rw [hvalue, hother, abs_sub_units, abs_sub_units] at hnear
    exact (div_le_div_iff_of_pos_right one_cast_pos).mp hnear
  · intro hne htie
    refine h.even (ofMagnitude m) hnumber ?_ ?_
    · rw [magnitude_ofMagnitude hm]
      exact hne
    · rw [hvalue, hother, abs_sub_units, abs_sub_units, htie]

theorem unique {y : Binary64} (h : x.IsNearest q) (h' : y.IsNearest q) : x = y := by
  have hmagnitude : x.magnitude = y.magnitude :=
    eq_of_beats (magnitude_le_of_number h.number) (magnitude_le_of_number h'.number)
      (fun _ => h.beats) (fun _ => h'.beats)
  rw [← ofMagnitude_magnitude h.positive, hmagnitude, ofMagnitude_magnitude h'.positive]

theorem isInfinite_iff (h : x.IsNearest q) :
    x.isInfinite = true <-> 2 ^ 1024 - 2 ^ 970 ≤ q := by
  rw [isInfinite, decide_eq_true_iff,
    eq_infiniteMagnitude_iff (magnitude_le_of_number h.number) (fun _ => h.beats),
    overflow_halfway, mul_le_mul_iff_right₀ two_pos, mul_le_mul_iff_left₀ one_cast_pos]

end IsNearest

/-- The nearest magnitude of a quotient is that of the nearest number. -/
theorem nearest_isNearest (a : Nat) {b : Nat} (hb : 0 < b) :
    (nearest a b).IsNearest (a / b) := by
  apply isNearest_ofMagnitude (by positivity) (nearestMagnitude_le a b)
  intro m hm
  have hunits : (a : ℚ) / b * one = (a * one : Nat) / b := by
    rw [Nat.cast_mul, div_mul_eq_mul_div]
  rw [hunits]
  exact nearestMagnitude_beats a hb hm

end Binary64
end Kaleidoscope

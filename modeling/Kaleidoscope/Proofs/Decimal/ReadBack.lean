import Mathlib.Data.List.TakeWhile
import Kaleidoscope.Proofs.Binary64.Rounding
import Kaleidoscope.Decimal.Layout
import Kaleidoscope.Decimal.Numeral
import Kaleidoscope.Tree.SourceForm

/-!
# Numbers read back

The source form of a number that is not negative is a numeral, and the value of
that numeral is the number itself: the shortest decimal rounds to the number it
was found for, and laying its digits out around a point does not change it.
-/

namespace Kaleidoscope
namespace Decimal

/-!
# Decimals of equal value
-/

theorem denominator_pos (d : Decimal) : 0 < d.denominator :=
  Nat.pow_pos (Nat.succ_pos 9)

theorem magnitude_congr {d d' : Decimal}
    (h : d.numerator * d'.denominator = d'.numerator * d.denominator) :
    d.magnitude = d'.magnitude :=
  Binary64.nearestMagnitude_congr d.denominator_pos d'.denominator_pos h

theorem magnitude_shift (significand : Nat) (exponent : Int) :
    Decimal.magnitude ⟨significand, exponent + 1⟩ =
      Decimal.magnitude ⟨10 * significand, exponent⟩ := by
  apply magnitude_congr
  unfold numerator denominator
  dsimp only
  by_cases hneg : exponent < 0
  · have hnext : (exponent + 1).toNat = 0 := by omega
    have hsame : exponent.toNat = 0 := by omega
    have hzero : (-exponent).toNat = (-(exponent + 1)).toNat + 1 := by omega
    have hpow : forall n, Nat.pow 10 (n + 1) = Nat.pow 10 n * 10 := fun n => rfl
    rw [hnext, hsame, hzero, hpow]
    show significand * 1 * _ = 10 * significand * 1 * _
    rw [Nat.mul_one, Nat.mul_one, Nat.mul_comm 10, Nat.mul_assoc, Nat.mul_comm 10]
  · have hnext : (exponent + 1).toNat = exponent.toNat + 1 := by omega
    have hzero : (-(exponent + 1)).toNat = 0 := by omega
    have hzero' : (-exponent).toNat = 0 := by omega
    have hpow : forall n, Nat.pow 10 (n + 1) = 10 * Nat.pow 10 n :=
      fun n => Nat.mul_comm _ _
    rw [hnext, hzero, hzero', hpow, ← Nat.mul_assoc, Nat.mul_comm 10]

theorem trimWithin_magnitude (steps : Nat) (d : Decimal) :
    (trimWithin steps d).magnitude = d.magnitude := by
  induction steps generalizing d with
  | zero => rfl
  | succ steps ih =>
      unfold trimWithin
      by_cases hten : d.significand % 10 = 0
      · have hdivide : 10 * (d.significand / 10) = d.significand :=
          Nat.mul_div_cancel' (Nat.dvd_of_mod_eq_zero hten)
        rw [if_pos hten, ih, magnitude_shift, hdivide]
      · rw [if_neg hten]

/-!
# The shortest decimal
-/

theorem neighbour?_magnitude {m places : Nat} {d : Decimal}
    (h : neighbour? m places = some d) : d.magnitude = m := by
  unfold neighbour? at h
  dsimp only at h
  split at h
  · next hlower =>
      rw [← Option.some.inj h]
      exact hlower.left
  · split at h
    · next hupper =>
        rw [← Option.some.inj h]
        exact hupper
    · cases h

theorem nearestMagnitude_decimal (units n : Nat) :
    Binary64.nearestMagnitude (units * Nat.pow 5 n) (Nat.pow 10 n) =
      Binary64.nearestMagnitude units (Nat.pow 2 n) := by
  have hten : Nat.pow 10 n = Nat.pow 2 n * Nat.pow 5 n := Nat.mul_pow 2 5 n
  rw [hten]
  exact Binary64.nearestMagnitude_mul_right _ _ (Nat.pow_pos (Nat.succ_pos 4))

theorem exact_magnitude {m : Nat} (h : m < Binary64.infiniteMagnitude) :
    (exact m).magnitude = m := by
  have hnumerator : (exact m).numerator = Binary64.unitsOf m * Nat.pow 5 1074 :=
    Nat.mul_one _
  have hexponent : (-(exact m).exponent).toNat = 1074 := rfl
  have hdenominator : (exact m).denominator = Nat.pow 10 1074 := by
    rw [denominator, hexponent]
  have hone : Binary64.nearestMagnitude (Binary64.unitsOf m) (Nat.pow 2 1074) = m :=
    Binary64.nearestMagnitude_unitsOf h
  rw [magnitude, hnumerator, hdenominator]
  exact (nearestMagnitude_decimal _ 1074).trans hone

theorem shortest_magnitude {m : Nat} (h : m < Binary64.infiniteMagnitude) :
    (shortest m).magnitude = m := by
  rw [shortest, trimWithin_magnitude]
  cases hfound : (List.range 17).findSome? (neighbour? m) with
  | none => exact exact_magnitude h
  | some d =>
      rcases List.exists_of_findSome?_eq_some hfound with ⟨places, _, hplaces⟩
      exact neighbour?_magnitude hplaces

end Decimal

/-!
# Numerals
-/

namespace Numeral

structure IsNumeral (text : List Char) : Prop where
  nonempty : text ≠ []
  parts {c : Char} : c ∈ text -> c.isDigit = true ∨ c = '.'

theorem ofDigits_eq (digits : List Char) :
    ofDigits digits = Nat.ofDigitChars 10 digits 0 :=
  Nat.ofDigitChars_eq_foldl.symm

theorem ofDigits_toDigits (n : Nat) : ofDigits (Nat.toDigits 10 n) = n := by
  rw [ofDigits_eq, Nat.ofDigitChars_ten_toDigits]

theorem ofDigits_zeros_append (count : Nat) (digits : List Char) :
    ofDigits (Decimal.zeros count ++ digits) = ofDigits digits := by
  rw [ofDigits_eq, ofDigits_eq, Decimal.zeros, Nat.ofDigitChars_append,
    Nat.ofDigitChars_replicate_zero, Nat.mul_zero]

theorem ofDigits_append_zeros (count : Nat) (digits : List Char) :
    ofDigits (digits ++ Decimal.zeros count) = ofDigits digits * Nat.pow 10 count := by
  rw [ofDigits_eq, ofDigits_eq, Decimal.zeros, Nat.ofDigitChars_append,
    Nat.ofDigitChars_replicate_zero]
  exact Nat.mul_comm _ _

theorem isDigit_of_mem_toDigits {n : Nat} {c : Char} (h : c ∈ Nat.toDigits 10 n) :
    c.isDigit = true :=
  Nat.isDigit_of_mem_toDigits (Nat.succ_pos 9) (Nat.le_refl 10) h

theorem isDigit_of_mem_zeros (count : Nat) (c : Char)
    (h : c ∈ Decimal.zeros count) : c.isDigit = true := by
  rw [List.eq_of_mem_replicate h]
  rfl

theorem isDigit_append {digits others : List Char}
    (h : forall c, c ∈ digits -> c.isDigit = true)
    (hothers : forall c, c ∈ others -> c.isDigit = true) :
    forall c, c ∈ digits ++ others -> c.isDigit = true := by
  intro c hc
  rcases List.mem_append.mp hc with hc | hc
  · exact h c hc
  · exact hothers c hc

theorem isNumeral_whole {digits : List Char} (hne : digits ≠ [])
    (h : forall c, c ∈ digits -> c.isDigit = true) : IsNumeral digits :=
  ⟨hne, fun hc => Or.inl (h _ hc)⟩

theorem isNumeral_point {digits others : List Char}
    (h : forall c, c ∈ digits -> c.isDigit = true)
    (hothers : forall c, c ∈ others -> c.isDigit = true) :
    IsNumeral (digits ++ '.' :: others) := by
  constructor
  · simp
  · intro c hc
    rcases List.mem_append.mp hc with hc | hc
    · exact Or.inl (h c hc)
    · rcases List.mem_cons.mp hc with hc | hc
      · exact Or.inr hc
      · exact Or.inl (hothers c hc)

section Parts

variable {digits others : List Char} (h : forall c, c ∈ digits -> c.isDigit = true)
include h

theorem whole_append (rest : List Char) : whole (digits ++ rest) = digits ++ whole rest :=
  List.takeWhile_append_of_pos h

theorem whole_digits : whole digits = digits :=
  List.takeWhile_eq_self_iff.mpr h

theorem fraction_digits : fraction digits = [] := by
  rw [fraction, List.dropWhile_eq_nil_iff.mpr h]

theorem whole_point (rest : List Char) : whole (digits ++ '.' :: rest) = digits := by
  rw [whole_append h]
  exact List.append_nil digits

theorem fraction_point (rest : List Char) :
    fraction (digits ++ '.' :: rest) = rest.takeWhile Char.isDigit := by
  rw [fraction, List.dropWhile_append_of_pos h]
  rfl

theorem value_whole : value digits = Binary64.nearest (ofDigits digits) 1 := by
  rw [value, whole_digits h, fraction_digits h, List.append_nil]
  rfl

theorem value_point (hothers : forall c, c ∈ others -> c.isDigit = true) :
    value (digits ++ '.' :: others) =
      Binary64.nearest (ofDigits (digits ++ others)) (Nat.pow 10 others.length) := by
  rw [value, whole_point h, fraction_point h, List.takeWhile_eq_self_iff.mpr hothers]

end Parts

end Numeral

namespace Decimal

theorem isDigit_of_mem_digits (d : Decimal) (c : Char) (h : c ∈ d.digits) :
    c.isDigit = true :=
  Numeral.isDigit_of_mem_toDigits h

theorem ofDigits_digits (d : Decimal) : Numeral.ofDigits d.digits = d.significand :=
  Numeral.ofDigits_toDigits d.significand

/-!
# Digits around a point
-/

theorem positionalText_small {d : Decimal} (h : d.pointPlace ≤ 0) :
    (d.positionalText .plain).toList =
      zeros 1 ++ '.' :: (zeros (-d.pointPlace).toNat ++ d.digits) := by
  simp only [positionalText, if_pos h, String.toList_append, String.toList_ofList]
  rfl

theorem positionalText_inside {d : Decimal} (h : ¬ d.pointPlace ≤ 0)
    (hinside : d.pointPlace < d.digits.length) :
    (d.positionalText .plain).toList =
      d.digits.take d.pointPlace.toNat ++ '.' :: d.digits.drop d.pointPlace.toNat := by
  simp only [positionalText, if_neg h, if_pos hinside, String.toList_append,
    String.toList_ofList, List.append_assoc]
  rfl

theorem positionalText_beyond {d : Decimal} (h : ¬ d.pointPlace ≤ 0)
    (hbeyond : ¬ d.pointPlace < d.digits.length) :
    (d.positionalText .plain).toList =
      d.digits ++ zeros (d.pointPlace.toNat - d.digits.length) := by
  simp only [positionalText, if_neg h, if_neg hbeyond, String.toList_append,
    String.toList_ofList]
  exact List.append_nil _

theorem text_plain (d : Decimal) : d.text .plain = d.positionalText .plain :=
  if_pos rfl

theorem value_positionalText (d : Decimal) :
    Numeral.value (d.positionalText .plain).toList =
      Binary64.nearest d.numerator d.denominator := by
  have hplace : d.pointPlace = d.digits.length + d.exponent := rfl
  have hdigits := isDigit_of_mem_digits d
  have hone : Nat.pow 10 0 = 1 := rfl
  by_cases hsmall : d.pointPlace ≤ 0
  · have hlength : (zeros (-d.pointPlace).toNat ++ d.digits).length =
        (-d.exponent).toNat := by
      rw [List.length_append, zeros, List.length_replicate]
      omega
    have hpositive : d.exponent.toNat = 0 := by omega
    rw [positionalText_small hsmall,
      Numeral.value_point (Numeral.isDigit_of_mem_zeros 1)
        (Numeral.isDigit_append (Numeral.isDigit_of_mem_zeros _) hdigits),
      hlength, Numeral.ofDigits_zeros_append, Numeral.ofDigits_zeros_append,
      ofDigits_digits, numerator, denominator, hpositive, hone, Nat.mul_one]
  · by_cases hinside : d.pointPlace < d.digits.length
    · have hlength : (d.digits.drop d.pointPlace.toNat).length =
          (-d.exponent).toNat := by
        rw [List.length_drop]
        omega
      have hpositive : d.exponent.toNat = 0 := by omega
      rw [positionalText_inside hsmall hinside,
        Numeral.value_point (fun c hc => hdigits c (List.mem_of_mem_take hc))
          (fun c hc => hdigits c (List.mem_of_mem_drop hc)),
        List.take_append_drop, hlength, ofDigits_digits, numerator, denominator,
        hpositive, hone, Nat.mul_one]
    · have hcount : d.pointPlace.toNat - d.digits.length = d.exponent.toNat := by omega
      have hnegative : (-d.exponent).toNat = 0 := by omega
      rw [positionalText_beyond hsmall hinside, hcount,
        Numeral.value_whole
          (Numeral.isDigit_append hdigits (Numeral.isDigit_of_mem_zeros _)),
        Numeral.ofDigits_append_zeros, ofDigits_digits, numerator, denominator,
        hnegative, hone]

theorem positionalText_isNumeral (d : Decimal) :
    Numeral.IsNumeral (d.positionalText .plain).toList := by
  have hdigits := isDigit_of_mem_digits d
  by_cases hsmall : d.pointPlace ≤ 0
  · rw [positionalText_small hsmall]
    exact Numeral.isNumeral_point (Numeral.isDigit_of_mem_zeros 1)
      (Numeral.isDigit_append (Numeral.isDigit_of_mem_zeros _) hdigits)
  · by_cases hinside : d.pointPlace < d.digits.length
    · rw [positionalText_inside hsmall hinside]
      exact Numeral.isNumeral_point (fun c hc => hdigits c (List.mem_of_mem_take hc))
        (fun c hc => hdigits c (List.mem_of_mem_drop hc))
    · have hne : d.digits ≠ [] := List.length_pos_iff.mp Nat.length_toDigits_pos
      rw [positionalText_beyond hsmall hinside]
      exact Numeral.isNumeral_whole (List.append_ne_nil_of_left_ne_nil hne _)
        (Numeral.isDigit_append hdigits (Numeral.isDigit_of_mem_zeros _))

end Decimal

namespace Binary64

/-!
# Source forms of numbers
-/

theorem sourceForm_infinity : infinity.sourceForm = infiniteNumeral := by
  have hmagnitude := magnitude_ofMagnitude (Nat.le_refl infiniteMagnitude)
  rw [sourceForm, isInfinite, infinity, hmagnitude, decide_eq_true rfl]
  rfl

theorem sourceForm_finite {m : Nat} (hpos : 0 < m) (h : m < infiniteMagnitude) :
    (ofMagnitude m).sourceForm = (Decimal.shortest m).positionalText .plain := by
  have hle := Nat.le_of_lt h
  have hzero : (ofMagnitude m).isZero = false := by
    rw [isZero, magnitude_ofMagnitude hle]
    exact decide_eq_false (Nat.ne_of_gt hpos)
  simp only [sourceForm, isInfinite_ofMagnitude h, text, isNaN_ofMagnitude hle,
    isNegative_ofMagnitude hle, hzero, magnitude_ofMagnitude hle, Bool.false_eq_true,
    if_false, Decimal.text_plain, String.empty_append]

theorem sourceForm_zero : zero.sourceForm = "0" := by
  have hle : 0 ≤ infiniteMagnitude := Nat.zero_le _
  have hfinite : 0 < infiniteMagnitude := by decide
  have hzero : zero.isZero = true := by
    rw [isZero, zero, magnitude_ofMagnitude hle]
    rfl
  have hinfinite : zero.isInfinite = false := isInfinite_ofMagnitude hfinite
  have hnan : zero.isNaN = false := isNaN_ofMagnitude hle
  have hnegative : zero.isNegative = false := isNegative_ofMagnitude hle
  simp only [sourceForm, hinfinite, text, hnan, hnegative, hzero, Bool.false_eq_true,
    if_false, if_true]
  rfl

theorem toList_infiniteNumeral : infiniteNumeral.toList = ['1'] ++ Decimal.zeros 309 :=
  String.toList_ofList

theorem isDigit_infiniteNumeral :
    forall c, c ∈ ['1'] ++ Decimal.zeros 309 -> c.isDigit = true :=
  Numeral.isDigit_append (List.all_eq_true.mp rfl) (Numeral.isDigit_of_mem_zeros 309)

/-- The numeral of infinity is too large for any finite number. -/
theorem value_infiniteNumeral : Numeral.value infiniteNumeral.toList = infinity := by
  have hone : Numeral.ofDigits ['1'] = 1 := rfl
  have hlarge : nearest (Nat.pow 10 309) 1 = infinity := by
    decide +kernel
  rw [toList_infiniteNumeral, Numeral.value_whole isDigit_infiniteNumeral,
    Numeral.ofDigits_append_zeros, hone, Nat.one_mul, hlarge]

theorem infiniteNumeral_isNumeral : Numeral.IsNumeral infiniteNumeral.toList := by
  rw [toList_infiniteNumeral]
  exact Numeral.isNumeral_whole (List.append_ne_nil_of_left_ne_nil (by simp) _)
    isDigit_infiniteNumeral

/-- The source form of a number that is not negative reads back. -/
theorem value_sourceForm {m : Nat} (h : m ≤ infiniteMagnitude) :
    Numeral.value (ofMagnitude m).sourceForm.toList = ofMagnitude m ∧
      Numeral.IsNumeral (ofMagnitude m).sourceForm.toList := by
  rcases Nat.lt_or_eq_of_le h with hfinite | hinfinite
  · rcases Nat.eq_zero_or_pos m with hzero | hpos
    · have hdigits : forall c, c ∈ ['0'] -> c.isDigit = true :=
        List.all_eq_true.mp rfl
      have htext : (ofMagnitude m).sourceForm.toList = ['0'] := by
        rw [hzero]
        exact congrArg String.toList sourceForm_zero
      rw [htext, hzero]
      exact ⟨by decide +kernel, Numeral.isNumeral_whole (List.cons_ne_nil _ _) hdigits⟩
    · rw [sourceForm_finite hpos hfinite, Decimal.value_positionalText]
      constructor
      · exact congrArg ofMagnitude (Decimal.shortest_magnitude hfinite)
      · exact Decimal.positionalText_isNumeral _
  · have hsame : ofMagnitude m = infinity := congrArg ofMagnitude hinfinite
    rw [hsame, sourceForm_infinity]
    exact ⟨value_infiniteNumeral, infiniteNumeral_isNumeral⟩

end Binary64
end Kaleidoscope

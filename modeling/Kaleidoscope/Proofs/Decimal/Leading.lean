import Mathlib.Data.List.DropRight
import Kaleidoscope.Proofs.Binary64.Nearest
import Kaleidoscope.Proofs.Decimal.ReadBack
import Kaleidoscope.Proofs.Text.Pattern

/-!
# Leading numerals

The value of a text is that of its longest prefix that is a numeral.  A search
for the pattern of numerals finds that prefix, although it only prefers more
digits to fewer and a fraction to none, and a correctly rounding reader of
decimals gives the prefix its value.
-/

namespace Kaleidoscope
namespace Numeral

/-!
# Decimals and their values
-/

structure IsRun (digits : List Char) : Prop where
  nonempty : digits ≠ []
  digit (c : Char) : c ∈ digits -> c.isDigit = true

def worth (digits : List Char) : ℚ :=
  Nat.ofDigitChars 10 digits 0

/-- The numerals, with their exact values. -/
inductive Denotes : List Char -> ℚ -> Prop where
  | whole {digits : List Char} : IsRun digits -> Denotes digits (worth digits)
  | point {digits others : List Char} : IsRun digits -> IsRun others ->
      Denotes (digits ++ '.' :: others) (worth digits + worth others / 10 ^ others.length)
  | fraction {others : List Char} : IsRun others ->
      Denotes ('.' :: others) (worth others / 10 ^ others.length)

/-- The numerals, and runs of digits with a point and nothing behind it: of digits and
points, this is what `strtod` would take. -/
inductive DenotesLoosely : List Char -> ℚ -> Prop where
  | numeral {text : List Char} {q : ℚ} : Denotes text q -> DenotesLoosely text q
  | trailing {digits : List Char} : IsRun digits ->
      DenotesLoosely (digits ++ ['.']) (worth digits)

/-- The longest prefix with a value. -/
structure IsLongest (denotes : List Char -> ℚ -> Prop) (text numeral : List Char) (q : ℚ) :
    Prop where
  leads : numeral <+: text
  denoted : denotes numeral q
  longest {other : List Char} {r : ℚ} : other <+: text -> denotes other r ->
    other.length ≤ numeral.length

/-!
# Conversion

A text is converted in two steps: a search for a numeral at its start, and a
reader of decimals, which is given a digit in front of a point.
-/

def fractionPattern : Pattern :=
  .followed (.one (· == '.')) (.many Char.isDigit)

/-- A run of digits with an optional fraction, or a fraction alone. -/
def pattern : Pattern :=
  .followed .start
    (.either (.followed (.many Char.isDigit) (.optional fractionPattern)) fractionPattern)

def completed (numeral : List Char) : List Char :=
  if numeral.head? = some '.' then '0' :: numeral else numeral

def convert (find? : List Char -> Option (List Char))
    (parse? : List Char -> Option Binary64) (text : List Char) : Binary64 :=
  match find? text with
  | none => Binary64.zero
  | some numeral => (parse? (completed numeral)).getD Binary64.zero

/-- A reader that gives every decimal the number nearest to it. -/
def RoundsCorrectly (parse? : List Char -> Option Binary64) : Prop :=
  forall text q, DenotesLoosely text q -> exists x, parse? text = some x ∧ x.IsNearest q

/-!
# Whole parts and fractions
-/

theorem isRun_iff {digits : List Char}
    (h : forall c, c ∈ digits -> c.isDigit = true) : IsRun digits <-> digits ≠ [] :=
  ⟨IsRun.nonempty, fun hne => ⟨hne, h⟩⟩

theorem isDigit_of_mem_nil : forall c, c ∈ ([] : List Char) -> c.isDigit = true :=
  fun c hc => by cases hc

theorem isDigit_of_mem_whole (text : List Char) :
    forall c, c ∈ whole text -> c.isDigit = true :=
  fun _ hc => List.mem_takeWhile_imp hc

theorem isDigit_of_mem_fraction (text : List Char) :
    forall c, c ∈ fraction text -> c.isDigit = true := by
  intro c hc
  unfold fraction at hc
  split at hc
  · exact List.mem_takeWhile_imp hc
  · cases hc

def exact (text : List Char) : ℚ :=
  worth (whole text) + worth (fraction text) / 10 ^ (fraction text).length

theorem value_isNearest (text : List Char) : (value text).IsNearest (exact text) := by
  have hpow : 0 < Nat.pow 10 (fraction text).length := Nat.pow_pos (Nat.succ_pos 9)
  have hquotient : (ofDigits (whole text ++ fraction text) : ℚ) /
      (Nat.pow 10 (fraction text).length : Nat) = exact text := by
    have hcast : ((Nat.pow 10 (fraction text).length : Nat) : ℚ) =
        10 ^ (fraction text).length := Nat.cast_pow 10 _
    rw [ofDigits_eq, Nat.ofDigitChars_append, Nat.ofDigitChars_eq_ofDigitChars_zero,
      Nat.cast_add, Nat.cast_mul, add_div, Nat.cast_pow, hcast, Nat.cast_ofNat,
      mul_div_cancel_left₀ _ (by positivity)]
    rfl
  have hnearest := Binary64.nearest_isNearest (ofDigits (whole text ++ fraction text)) hpow
  rw [hquotient] at hnearest
  exact hnearest

theorem worth_nil : worth [] = 0 :=
  Nat.cast_zero

theorem exact_of_denotes {text : List Char} {q : ℚ} (h : DenotesLoosely text q) :
    exact text = q := by
  cases h with
  | trailing hdigits =>
      rw [exact, whole_point hdigits.digit, fraction_point hdigits.digit]
      simp [worth_nil]
  | numeral h =>
      cases h with
      | whole hdigits =>
          rw [exact, whole_digits hdigits.digit, fraction_digits hdigits.digit, worth_nil,
            zero_div, add_zero]
      | point hdigits hothers =>
          rw [exact, whole_point hdigits.digit, fraction_point hdigits.digit,
            List.takeWhile_eq_self_iff.mpr hothers.digit]
      | @fraction others hothers =>
          have hwhole := whole_point isDigit_of_mem_nil others
          have hfraction := fraction_point isDigit_of_mem_nil others
          rw [List.nil_append] at hwhole hfraction
          rw [exact, hwhole, hfraction, List.takeWhile_eq_self_iff.mpr hothers.digit,
            worth_nil, zero_add]

/-!
# The longest prefix
-/

def pointed : List Char -> List Char
  | [] => []
  | digit :: others => '.' :: digit :: others

def leading (text : List Char) : List Char :=
  whole text ++ pointed (fraction text)

theorem fraction_nil_or (text : List Char) :
    fraction text = [] ∨
      exists rest, text.dropWhile Char.isDigit = '.' :: (fraction text ++ rest) := by
  unfold fraction
  split
  · next rest h =>
      refine Or.inr ⟨rest.dropWhile Char.isDigit, ?_⟩
      rw [h, List.takeWhile_append_dropWhile]
  · exact Or.inl rfl

theorem leading_leads (text : List Char) : leading text <+: text := by
  have hsplit : whole text ++ text.dropWhile Char.isDigit = text :=
    List.takeWhile_append_dropWhile
  rcases fraction_nil_or text with hnone | ⟨rest, hrest⟩
  · rw [leading, hnone]
    refine ⟨text.dropWhile Char.isDigit, ?_⟩
    rw [pointed, List.append_nil, hsplit]
  · cases hfraction : fraction text with
    | nil =>
        rw [leading, hfraction]
        exact ⟨_, (congrArg (· ++ _) (List.append_nil _)).trans hsplit⟩
    | cons digit others =>
        rw [leading, hfraction]
        rw [hfraction] at hrest
        refine ⟨rest, ?_⟩
        rw [hrest] at hsplit
        rw [pointed, List.append_assoc]
        exact hsplit

theorem leading_denotes {text : List Char} (h : leading text ≠ []) :
    Denotes (leading text) (exact text) := by
  have hwhole := isRun_iff (isDigit_of_mem_whole text)
  have hfraction := isRun_iff (isDigit_of_mem_fraction text)
  unfold leading at h ⊢
  unfold exact
  generalize whole text = digits at *
  generalize fraction text = others at *
  cases others with
  | nil =>
      rw [pointed, List.append_nil] at h ⊢
      rw [worth_nil, zero_div, add_zero]
      exact Denotes.whole (hwhole.mpr h)
  | cons digit others =>
      have hothers := hfraction.mpr (List.cons_ne_nil _ _)
      cases digits with
      | nil =>
          rw [worth_nil, zero_add]
          exact Denotes.fraction hothers
      | cons first digits => exact Denotes.point (hwhole.mpr (List.cons_ne_nil _ _)) hothers

theorem length_pointed (others : List Char) (hne : others ≠ []) :
    (pointed others).length = others.length + 1 := by
  cases others with
  | nil => exact absurd rfl hne
  | cons digit others => rfl

theorem length_point_le_leading {digits others : List Char}
    (hdigits : forall c, c ∈ digits -> c.isDigit = true)
    (hothers : IsRun others) (rest : List Char) :
    (digits ++ '.' :: others).length ≤ (leading (digits ++ '.' :: (others ++ rest))).length := by
  have hfraction : fraction (digits ++ '.' :: (others ++ rest)) =
      others ++ rest.takeWhile Char.isDigit := by
    rw [fraction_point hdigits, List.takeWhile_append_of_pos hothers.digit]
  have hne : others ++ rest.takeWhile Char.isDigit ≠ [] :=
    List.append_ne_nil_of_left_ne_nil hothers.nonempty _
  rw [leading, whole_point hdigits, hfraction, List.length_append, List.length_append,
    length_pointed _ hne, List.length_cons, List.length_append]
  omega

theorem length_le_leading {numeral text : List Char} {q : ℚ} (h : Denotes numeral q)
    (hleads : numeral <+: text) : numeral.length ≤ (leading text).length := by
  rcases hleads with ⟨rest, hrest⟩
  rw [← hrest]
  cases h with
  | whole hdigits =>
      rw [leading, whole_append hdigits.digit, List.append_assoc, List.length_append]
      exact Nat.le_add_right _ _
  | point hdigits hothers =>
      rw [List.append_assoc]
      exact length_point_le_leading hdigits.digit hothers rest
  | fraction hothers =>
      exact length_point_le_leading isDigit_of_mem_nil hothers rest

theorem isLongest_leading {text : List Char} (h : leading text ≠ []) :
    IsLongest Denotes text (leading text) (exact text) :=
  ⟨leading_leads text, leading_denotes h, fun hleads hdenotes =>
    length_le_leading hdenotes hleads⟩

theorem Denotes.ne_nil {text : List Char} {q : ℚ} (h : Denotes text q) : text ≠ [] := by
  cases h with
  | whole hdigits => exact hdigits.nonempty
  | point => simp
  | fraction => simp

theorem leading_of_isLongest {text numeral : List Char} {q : ℚ}
    (h : IsLongest Denotes text numeral q) :
    numeral = leading text ∧ q = exact text := by
  have hle := length_le_leading h.denoted h.leads
  have hne : leading text ≠ [] := by
    intro hnil
    rw [hnil] at hle
    exact h.denoted.ne_nil (List.length_eq_zero_iff.mp (Nat.le_zero.mp hle))
  have hlongest := isLongest_leading hne
  have hsame : numeral = leading text :=
    (List.prefix_of_prefix_length_le h.leads hlongest.leads hle).eq_of_length_le
      (h.longest hlongest.leads hlongest.denoted)
  refine ⟨hsame, ?_⟩
  rw [← exact_of_denotes (.numeral h.denoted), hsame,
    exact_of_denotes (.numeral hlongest.denoted)]

theorem exact_of_isLongest_loosely {text numeral : List Char} {q : ℚ}
    (h : IsLongest DenotesLoosely text numeral q) : q = exact text := by
  rcases h with ⟨hleads, hdenoted, hlongest⟩
  cases hdenoted with
  | numeral hdenotes =>
      exact (leading_of_isLongest ⟨hleads, hdenotes, fun hother hr =>
        hlongest hother (.numeral hr)⟩).right
  | @trailing digits hdigits =>
      rcases hleads with ⟨rest, hrest⟩
      have htext : digits ++ '.' :: rest = text := by
        rw [← hrest, List.append_assoc]
        rfl
      have hfraction : rest.takeWhile Char.isDigit = [] := by
        by_contra hne
        have hlonger := hlongest (leading_leads text)
          (.numeral (leading_denotes (by
            rw [leading, ← htext, whole_point hdigits.digit]
            exact List.append_ne_nil_of_left_ne_nil hdigits.nonempty _)))
        rw [leading, ← htext, whole_point hdigits.digit, fraction_point hdigits.digit,
          List.length_append, length_pointed _ hne, List.length_append] at hlonger
        have hpos := List.length_pos_iff.mpr hne
        simp only [List.length_cons, List.length_nil] at hlonger
        omega
      rw [exact, ← htext, whole_point hdigits.digit, fraction_point hdigits.digit, hfraction,
        worth_nil, zero_div, add_zero]

/-!
# The search
-/

theorem taken_fraction (atStart : Bool) {text : List Char} (h : whole text = []) :
    (fractionPattern.first? atStart text).map Pattern.Way.taken =
      if fraction text = [] then none else some (pointed (fraction text)) := by
  cases text with
  | nil => rfl
  | cons c rest =>
      have hdigit : ¬ c.isDigit = true := by
        intro hdigit
        rw [whole, List.takeWhile_cons_of_pos hdigit] at h
        cases h
      have hdrop : (c :: rest).dropWhile Char.isDigit = c :: rest :=
        List.dropWhile_cons_of_neg hdigit
      rw [fractionPattern, Pattern.first?_followed_one]
      by_cases hpoint : c = '.'
      · have hfraction : fraction (c :: rest) = rest.takeWhile Char.isDigit := by
          rw [fraction, hdrop, hpoint]
          rfl
        rw [if_pos (beq_iff_eq.mpr hpoint), Pattern.first?_many, hfraction]
        cases hrun : rest.takeWhile Char.isDigit with
        | nil => rfl
        | cons digit others =>
            rw [hpoint]
            rfl
      · have hfraction : fraction (c :: rest) = [] := by
          rw [fraction, hdrop]
          split
          · next heq => exact absurd (List.cons.inj heq).left hpoint
          · rfl
        rw [if_neg (fun heq => hpoint (beq_iff_eq.mp heq)), hfraction]
        rfl

/-- The search takes the longest leading numeral. -/
theorem search_pattern (text : List Char) :
    pattern.search true text = if leading text = [] then none else some (leading text) := by
  have hmany := Pattern.first?_many Char.isDigit true text
  rw [pattern, Pattern.search_followed_start, Pattern.first?_either]
  by_cases hwhole : whole text = []
  · -- without a digit in front only the second alternative is left
    have hnone : (Pattern.many Char.isDigit).first? true text = none :=
      hmany.trans (if_pos hwhole)
    rw [Pattern.first?_followed_none _ _ _ _ hnone, Option.none_or,
      taken_fraction true hwhole, leading, hwhole, List.nil_append]
    cases fraction text <;> rfl
  · have hsome : (Pattern.many Char.isDigit).first? true text =
        some ⟨whole text, text.dropWhile Char.isDigit⟩ := hmany.trans (if_neg hwhole)
    have hdrop := List.dropWhile_idempotent Char.isDigit text
    have hrest : whole (text.dropWhile Char.isDigit) = [] := by
      have hsplit : whole (text.dropWhile Char.isDigit) ++
          (text.dropWhile Char.isDigit).dropWhile Char.isDigit =
            text.dropWhile Char.isDigit := List.takeWhile_append_dropWhile
      rw [hdrop] at hsplit
      exact List.append_left_eq_self.mp hsplit
    have hfraction : fraction (text.dropWhile Char.isDigit) = fraction text := by
      rw [fraction, hdrop, fraction]
    have hleading : leading text ≠ [] := List.append_ne_nil_of_left_ne_nil hwhole _
    have htaken := Pattern.taken_followed_optional _ fractionPattern _ _ hsome
    rw [taken_fraction _ hrest, hfraction] at htaken
    rw [Option.map_or, htaken, Option.some_or, if_neg hleading, leading]
    cases fraction text <;> rfl

/-!
# Values
-/

theorem completed_of_denotes {numeral : List Char} {q : ℚ} (h : Denotes numeral q) :
    Denotes (completed numeral) q := by
  have hrun : forall {digits : List Char}, IsRun digits -> forall rest,
      completed (digits ++ rest) = digits ++ rest := by
    intro digits hdigits rest
    cases digits with
    | nil => exact absurd rfl hdigits.nonempty
    | cons first digits =>
        have hdigit := hdigits.digit first List.mem_cons_self
        have hfirst : ¬ (first :: digits ++ rest).head? = some '.' := by
          intro hpoint
          rw [Option.some.inj hpoint] at hdigit
          cases hdigit
        exact if_neg hfirst
  cases h with
  | @whole digits hdigits =>
      have hsame := hrun hdigits []
      rw [List.append_nil] at hsame
      rw [hsame]
      exact .whole hdigits
  | point hdigits hothers =>
      rw [hrun hdigits]
      exact .point hdigits hothers
  | fraction hothers =>
      have hzero : worth ['0'] = 0 := Nat.cast_zero
      have hdigits : IsRun ['0'] := ⟨List.cons_ne_nil _ _, List.all_eq_true.mp rfl⟩
      have hpoint := Denotes.point hdigits hothers
      rw [hzero, zero_add] at hpoint
      exact hpoint

theorem value_of_leading_nil {text : List Char} (h : leading text = []) :
    value text = Binary64.zero := by
  have hwhole : whole text = [] := (List.append_eq_nil_iff.mp h).left
  have hfraction : fraction text = [] := by
    have hpointed := (List.append_eq_nil_iff.mp h).right
    cases hothers : fraction text with
    | nil => rfl
    | cons digit others =>
        rw [hothers] at hpointed
        cases hpointed
  have hzero : Binary64.nearest 0 1 = Binary64.zero := by
    decide +kernel
  rw [value, hwhole, hfraction]
  exact hzero

section Steps

variable {find? : List Char -> Option (List Char)} {parse? : List Char -> Option Binary64}
  {text numeral : List Char} {q : ℚ}

theorem parse?_completed (hparse : RoundsCorrectly parse?)
    (h : IsLongest Denotes text numeral q) :
    parse? (completed numeral) = some (value text) := by
  rcases hparse _ _ (.numeral (completed_of_denotes h.denoted)) with ⟨x, hx, hnearest⟩
  have hvalue := value_isNearest text
  rw [← (leading_of_isLongest h).right] at hvalue
  rw [hx, hnearest.unique hvalue]

theorem find?_of_isLongest (hfind : pattern.LeftmostFirst find?)
    (h : IsLongest Denotes text numeral q) : find? text = some numeral := by
  have hleading := (leading_of_isLongest h).left
  have hne : leading text ≠ [] := hleading ▸ h.denoted.ne_nil
  rw [hfind, search_pattern, if_neg hne, hleading]

theorem find?_of_leading_nil (hfind : pattern.LeftmostFirst find?) (h : leading text = []) :
    find? text = none := by
  rw [hfind, search_pattern, if_pos h]

theorem convert_eq_value (hfind : pattern.LeftmostFirst find?)
    (hparse : RoundsCorrectly parse?) (text : List Char) :
    convert find? parse? text = value text := by
  by_cases hnil : leading text = []
  · rw [convert, find?_of_leading_nil hfind hnil, value_of_leading_nil hnil]
  · have hlongest := isLongest_leading hnil
    rw [convert, find?_of_isLongest hfind hlongest]
    dsimp only
    rw [parse?_completed hparse hlongest, Option.getD_some]

theorem value_of_isLongest (h : IsLongest Denotes text numeral q) :
    value numeral = value text := by
  have hnumeral := value_isNearest numeral
  have htext := value_isNearest text
  rw [exact_of_denotes (.numeral h.denoted)] at hnumeral
  rw [← (leading_of_isLongest h).right] at htext
  exact hnumeral.unique htext

end Steps

/-!
# A reader of decimals
-/

def isDecimal (text : List Char) : Bool :=
  match text.dropWhile Char.isDigit with
  | [] => !text.isEmpty
  | c :: rest => c == '.' && rest.all Char.isDigit && !(whole text ++ rest).isEmpty

def read? (text : List Char) : Option Binary64 :=
  if isDecimal text then some (value text) else none

theorem isDecimal_point {digits others : List Char}
    (hdigits : forall c, c ∈ digits -> c.isDigit = true)
    (hothers : forall c, c ∈ others -> c.isDigit = true) (hne : digits ++ others ≠ []) :
    isDecimal (digits ++ '.' :: others) = true := by
  have hdrop : (digits ++ '.' :: others).dropWhile Char.isDigit = '.' :: others := by
    rw [List.dropWhile_append_of_pos hdigits]
    rfl
  have hall : others.all Char.isDigit = true := List.all_eq_true.mpr hothers
  have hsome : (digits ++ others).isEmpty = false := List.isEmpty_eq_false_iff.mpr hne
  rw [isDecimal, hdrop, whole_point hdigits]
  dsimp only
  rw [hall, hsome]
  rfl

theorem isDecimal_of_denotes {text : List Char} {q : ℚ} (h : DenotesLoosely text q) :
    isDecimal text = true := by
  cases h with
  | @trailing digits hdigits =>
      refine isDecimal_point hdigits.digit isDigit_of_mem_nil ?_
      exact List.append_ne_nil_of_left_ne_nil hdigits.nonempty _
  | numeral h =>
      cases h with
      | whole hdigits =>
          rw [isDecimal, List.dropWhile_eq_nil_iff.mpr hdigits.digit,
            List.isEmpty_eq_false_iff.mpr hdigits.nonempty]
          rfl
      | point hdigits hothers =>
          exact isDecimal_point hdigits.digit hothers.digit
            (List.append_ne_nil_of_left_ne_nil hdigits.nonempty _)
      | fraction hothers =>
          exact isDecimal_point isDigit_of_mem_nil hothers.digit hothers.nonempty

theorem read?_roundsCorrectly : RoundsCorrectly read? := by
  intro text q h
  have hnearest := value_isNearest text
  rw [exact_of_denotes h] at hnearest
  exact ⟨value text, if_pos (isDecimal_of_denotes h), hnearest⟩

/-!
# The converted number
-/

/-- What holds of the number that a text is converted to. -/
structure Converts (find? : List Char -> Option (List Char))
    (parse? : List Char -> Option Binary64) (text : List Char) (x : Binary64) : Prop where
  number : x.isNaN = false
  positive : x.isNegative = false
  unfound : (forall numeral q, numeral <+: text -> ¬ Denotes numeral q) ->
    find? text = none ∧ x = Binary64.zero
  found : (exists numeral q, numeral <+: text ∧ Denotes numeral q) ->
    exists numeral q, IsLongest Denotes text numeral q
  longest {numeral : List Char} {q : ℚ} : IsLongest Denotes text numeral q ->
    find? text = some numeral ∧ parse? (completed numeral) = some x ∧
      convert find? parse? numeral = x ∧ x.IsNearest q ∧
        (x.isInfinite = true <-> 2 ^ 1024 - 2 ^ 970 ≤ q)
  loose {numeral : List Char} {q : ℚ} : IsLongest DenotesLoosely text numeral q ->
    x.IsNearest q

/-- Every text is converted to the number nearest to its longest leading numeral. -/
theorem convert_converts {find? : List Char -> Option (List Char)}
    {parse? : List Char -> Option Binary64} (hfind : pattern.LeftmostFirst find?)
    (hparse : RoundsCorrectly parse?) (text : List Char) :
    convert find? parse? text = value text ∧
      Converts find? parse? text (value text) := by
  have hnearest := value_isNearest text
  refine ⟨convert_eq_value hfind hparse text, ?_⟩
  constructor
  case number => exact hnearest.number
  case positive => exact hnearest.positive
  case unfound =>
    intro hnone
    have hnil : leading text = [] := by
      by_contra hne
      exact hnone _ _ (leading_leads text) (leading_denotes hne)
    exact ⟨find?_of_leading_nil hfind hnil, value_of_leading_nil hnil⟩
  case found =>
    rintro ⟨numeral, q, hleads, hdenotes⟩
    have hne : leading text ≠ [] := by
      intro hnil
      have hle := length_le_leading hdenotes hleads
      rw [hnil] at hle
      exact hdenotes.ne_nil (List.length_eq_zero_iff.mp (Nat.le_zero.mp hle))
    exact ⟨_, _, isLongest_leading hne⟩
  case longest =>
    intro numeral q hlongest
    rw [← (leading_of_isLongest hlongest).right] at hnearest
    refine ⟨find?_of_isLongest hfind hlongest, parse?_completed hparse hlongest, ?_, hnearest,
      hnearest.isInfinite_iff⟩
    rw [convert_eq_value hfind hparse, value_of_isLongest hlongest]
  case loose =>
    intro numeral q hlongest
    rw [exact_of_isLongest_loosely hlongest]
    exact hnearest

theorem convert_converts_half :
    pattern.LeftmostFirst (pattern.search true) ∧ RoundsCorrectly read? ∧
      convert (pattern.search true) read? ".5.2e1".toList = ⟨0x3FE0000000000000⟩ ∧
      convert (pattern.search true) read? ".5.2e1".toList = value ".5.2e1".toList ∧
      Converts (pattern.search true) read? ".5.2e1".toList (value ".5.2e1".toList) :=
  ⟨fun _ => rfl, read?_roundsCorrectly, by decide +kernel,
    convert_converts (fun _ => rfl) read?_roundsCorrectly ".5.2e1".toList⟩

end Numeral
end Kaleidoscope

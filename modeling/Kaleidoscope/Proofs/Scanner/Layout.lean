import Mathlib.Data.List.Basic
import Kaleidoscope.Proofs.Scanner.Unread

/-!
# Gaps between lexemes

A gap is a sequence of blank characters and comments.  A comment goes from `#`
through the first end of a line, or to the end of the text.  What a scanner
drops before a lexeme is just such a gap.
-/

namespace Kaleidoscope

def IsBlank (c : Char) : Prop :=
  c ∈ [' ', '\t', '\n', '\r', '\x0b', '\x0c']

def IsLineEnd (c : Char) : Prop :=
  c ∈ ['\n', '\r']

/-- A gap before the given characters. -/
inductive Gap (following : List Char) : List Char -> Prop where
  | nothing : Gap following []
  | blank {c : Char} {rest : List Char} :
      IsBlank c -> Gap following rest -> Gap following (c :: rest)
  | comment {inside : List Char} {stop : Char} {rest : List Char} :
      (forall c, c ∈ inside -> ¬ IsLineEnd c) -> IsLineEnd stop ->
      Gap following rest -> Gap following ('#' :: (inside ++ stop :: rest))
  | lastComment {inside : List Char} :
      (forall c, c ∈ inside -> ¬ IsLineEnd c) -> following = [] ->
      Gap following ('#' :: inside)

def AtLexeme (text : List Char) : Prop :=
  forall c, text.head? = some c -> ¬ IsBlank c ∧ c ≠ '#'

theorem isBlank_iff (c : Char) : Cursor.isSpace c = true <-> IsBlank c := by
  simp [Cursor.isSpace, IsBlank, or_assoc]

theorem isLineEnd_iff (c : Char) : Cursor.isLineEnd c = true <-> IsLineEnd c := by
  simp [Cursor.isLineEnd, IsLineEnd]

theorem atLexeme_nil : AtLexeme [] := by
  intro c h
  cases h

theorem atLexeme_cons {c : Char} (hblank : ¬ IsBlank c) (hhash : c ≠ '#')
    (rest : List Char) : AtLexeme (c :: rest) := by
  intro d h
  injection h with hsame
  rw [← hsame]
  exact ⟨hblank, hhash⟩

namespace Cursor

/-!
# Dropping one piece of layout
-/

theorem layoutStep?_eq_none_iff (c : Char) :
    layoutStep? false c = none <-> ¬ IsBlank c ∧ c ≠ '#' := by
  rw [← isBlank_iff]
  by_cases hblank : isSpace c = true
  · simp [layoutStep?, hblank]
  · by_cases hhash : c = '#'
    · simp only [layoutStep?, hhash]
      decide
    · simp [layoutStep?, hblank, hhash]

theorem dropLayout_of_atLexeme {text : List Char} (h : AtLexeme text) :
    dropLayout false text = text := by
  cases text with
  | nil => rfl
  | cons c rest =>
      have hstep := (layoutStep?_eq_none_iff c).mpr (h c rfl)
      rw [dropLayout, hstep]

theorem dropLayout_blank {c : Char} (h : IsBlank c) (rest : List Char) :
    dropLayout false (c :: rest) = dropLayout false rest := by
  rw [← isBlank_iff] at h
  simp [dropLayout, layoutStep?, h]

theorem dropLayout_hash (rest : List Char) :
    dropLayout false ('#' :: rest) = dropLayout true rest := rfl

theorem dropLayout_lineEnd {c : Char} (h : IsLineEnd c) (rest : List Char) :
    dropLayout true (c :: rest) = dropLayout false rest := by
  rw [← isLineEnd_iff] at h
  simp [dropLayout, layoutStep?, h]

theorem dropLayout_inside {c : Char} (h : ¬ IsLineEnd c) (rest : List Char) :
    dropLayout true (c :: rest) = dropLayout true rest := by
  rw [← isLineEnd_iff] at h
  simp [dropLayout, layoutStep?, h]

theorem dropLayout_comment {inside : List Char}
    (h : forall c, c ∈ inside -> ¬ IsLineEnd c) (rest : List Char) :
    dropLayout true (inside ++ rest) = dropLayout true rest := by
  induction inside with
  | nil => rfl
  | cons c inside ih =>
      have hrest : forall d, d ∈ inside -> ¬ IsLineEnd d :=
        fun d hd => h d (List.mem_cons_of_mem c hd)
      rw [List.cons_append, dropLayout_inside (h c List.mem_cons_self), ih hrest]

/-!
# Dropping a gap
-/

theorem dropLayout_of_gap {gap following : List Char} (h : Gap following gap)
    (hnext : AtLexeme following) :
    dropLayout false (gap ++ following) = following := by
  induction h with
  | nothing => exact dropLayout_of_atLexeme hnext
  | blank hblank _ ih =>
      rw [List.cons_append, dropLayout_blank hblank, ih]
  | comment hinside hstop _ ih =>
      rw [List.cons_append, dropLayout_hash, List.append_assoc,
        dropLayout_comment hinside, List.cons_append, dropLayout_lineEnd hstop, ih]
  | lastComment hinside hend =>
      have hdrop := dropLayout_comment hinside []
      rw [hend, List.append_nil, dropLayout_hash]
      rw [List.append_nil] at hdrop
      exact hdrop

theorem atLexeme_dropLayout (inComment : Bool) (text : List Char) :
    AtLexeme (dropLayout inComment text) := by
  induction text generalizing inComment with
  | nil => exact atLexeme_nil
  | cons c rest ih =>
      cases hstep : layoutStep? inComment c with
      | none =>
          rw [dropLayout, hstep]
          cases inComment with
          | true => cases hstep
          | false =>
              rcases (layoutStep?_eq_none_iff c).mp hstep with ⟨hblank, hhash⟩
              exact atLexeme_cons hblank hhash rest
      | some inside =>
          rw [dropLayout, hstep]
          exact ih inside

theorem gap_comment_cons {following gap : List Char} {c : Char}
    (h : Gap following ('#' :: gap)) (hc : ¬ IsLineEnd c) :
    Gap following ('#' :: c :: gap) := by
  have hlonger : forall {inside : List Char},
      (forall d, d ∈ inside -> ¬ IsLineEnd d) ->
        forall d, d ∈ c :: inside -> ¬ IsLineEnd d := by
    intro inside hinside d hd
    rcases List.mem_cons.mp hd with hsame | hd
    · rw [hsame]
      exact hc
    · exact hinside d hd
  cases h with
  | blank hblank _ => exact absurd hblank (by simp [IsBlank])
  | comment hinside hstop hrest =>
      exact Gap.comment (hlonger hinside) hstop hrest
  | lastComment hinside hend => exact Gap.lastComment (hlonger hinside) hend

/-- What is dropped is a gap, or goes on with the comment that is open. -/
theorem dropLayout_gap (text : List Char) :
    (exists gap, text = gap ++ dropLayout false text ∧
      Gap (dropLayout false text) gap) ∧
    (exists gap, text = gap ++ dropLayout true text ∧
      Gap (dropLayout true text) ('#' :: gap)) := by
  induction text with
  | nil =>
      constructor
      · exact ⟨[], rfl, Gap.nothing⟩
      · exact ⟨[], rfl, Gap.lastComment (fun c hc => absurd hc List.not_mem_nil) rfl⟩
  | cons c rest ih =>
      rcases ih with ⟨⟨gap, happend, hgap⟩, ⟨inside, hinside, hcomment⟩⟩
      constructor
      · by_cases hblank : IsBlank c
        · rw [dropLayout_blank hblank]
          exact ⟨c :: gap, congrArg (c :: ·) happend, Gap.blank hblank hgap⟩
        · by_cases hhash : c = '#'
          · rw [hhash, dropLayout_hash]
            exact ⟨'#' :: inside, congrArg ('#' :: ·) hinside, hcomment⟩
          · rw [dropLayout_of_atLexeme (atLexeme_cons hblank hhash rest)]
            exact ⟨[], rfl, Gap.nothing⟩
      · by_cases hend : IsLineEnd c
        · rw [dropLayout_lineEnd hend]
          have hnone : forall d, d ∈ [] -> ¬ IsLineEnd d :=
            fun d hd => absurd hd List.not_mem_nil
          exact ⟨c :: gap, congrArg (c :: ·) happend, Gap.comment hnone hend hgap⟩
        · rw [dropLayout_inside hend]
          exact ⟨c :: inside, congrArg (c :: ·) hinside,
            gap_comment_cons hcomment hend⟩

theorem exists_gap (text : List Char) :
    exists gap, text = gap ++ dropLayout false text ∧
      Gap (dropLayout false text) gap :=
  (dropLayout_gap text).left

end Cursor
end Kaleidoscope

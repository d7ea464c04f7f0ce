import Kaleidoscope.Proofs.Scanner.Streaming

/-!
# Sources that begin alike

Two sources that give the same characters first are read alike as long as no
more than these are asked for.  A scanner that has asked for more, or has met
the end, may have learnt where they differ.
-/

namespace Kaleidoscope

theorem Source.exists_answers (answers : List (Option Char)) :
    exists after, answers = (charsOf answers).map some ++ after := by
  induction answers with
  | nil => exact ⟨[], rfl⟩
  | cons answer rest ih =>
      cases answer with
      | none => exact ⟨none :: rest, rfl⟩
      | some c =>
          rcases ih with ⟨after, hafter⟩
          exact ⟨after, congrArg (some c :: ·) hafter⟩

namespace Cursor

/-- More than `count` characters were asked for, or the end was met. -/
def Past (count : Nat) (cursor : Cursor) : Prop :=
  count < cursor.pulled ∨ cursor.lookahead = none

/-- The cursors have read the same, and read the same up to `count` characters. -/
structure Shares (count : Nat) (cursor other : Cursor) : Prop where
  lookahead : cursor.lookahead = other.lookahead
  pulled : cursor.pulled = other.pulled
  answers : exists (common : List Char) (after others : List (Option Char)),
    cursor.source.answers = common.map some ++ after ∧
      other.source.answers = common.map some ++ others ∧
      cursor.pulled + common.length = count

theorem offset_of_shares {count : Nat} {cursor other : Cursor}
    (h : cursor.Shares count other) : cursor.offset = other.offset := by
  rw [offset, offset, h.lookahead, h.pulled]

theorem start_shares {count : Nat} {source other : Source}
    (hcount : count ≤ (Source.charsOf source.answers).length)
    (hsame : (Source.charsOf other.answers).take count =
      (Source.charsOf source.answers).take count) :
    (start source).Shares count (start other) where
  lookahead := rfl
  pulled := rfl
  answers := by
    rcases Source.exists_answers source.answers with ⟨after, hafter⟩
    rcases Source.exists_answers other.answers with ⟨others, hothers⟩
    have hsplit (text : List Char) (rest : List (Option Char)) :
        text.map some ++ rest =
          (text.take count).map some ++ ((text.drop count).map some ++ rest) := by
      rw [← List.append_assoc, ← List.map_append, List.take_append_drop]
    have hsource := hafter.trans (hsplit _ after)
    have hother := hothers.trans (hsplit _ others)
    rw [hsame] at hother
    refine ⟨_, _, _, hsource, hother, ?_⟩
    rw [List.length_take, Nat.min_eq_left hcount]
    exact Nat.zero_add count

theorem past_of_asks {count : Nat} {cursor rest : Cursor} {got : List (Option Char)}
    (h : Asks cursor got rest) (hpast : cursor.Past count) : rest.Past count := by
  induction h with
  | nothing _ => exact hpast
  | @answer cursor rest got hlook _ ih =>
      apply ih
      have hless := hpast.resolve_right hlook
      cases hnext : cursor.source.next.1 with
      | none => exact Or.inr hnext
      | some c =>
          left
          simp only [ask, hnext]
          exact Nat.lt_succ_of_lt hless

/-!
# Runs and layout
-/

theorem pullWhileFrom_past (p : Char -> Bool) (pulled : Nat)
    (answers : List (Option Char)) : (pullWhileFrom p pulled answers).2.Past pulled := by
  rcases answers with _ | ⟨_ | c, rest⟩
  · exact Or.inr rfl
  · exact Or.inr rfl
  · have hnext : Past pulled ⟨some c, ⟨rest⟩, pulled + 1⟩ := Or.inl (Nat.lt_succ_self pulled)
    rcases pullWhileFrom_asks p c (pulled + 1) rest with ⟨got, hgot⟩
    rw [pullWhileFrom]
    split
    · exact past_of_asks hgot hnext
    · exact hnext

theorem pullWhileFrom_shares (p : Char -> Bool) {count pulled : Nat}
    {common : List Char} (hcount : pulled + common.length = count)
    (after others : List (Option Char)) :
    (pullWhileFrom p pulled (common.map some ++ after)).2.Past count ∨
      (pullWhileFrom p pulled (common.map some ++ after)).1 =
          (pullWhileFrom p pulled (common.map some ++ others)).1 ∧
        (pullWhileFrom p pulled (common.map some ++ after)).2.Shares count
          (pullWhileFrom p pulled (common.map some ++ others)).2 := by
  induction common generalizing pulled with
  | nil =>
      rw [List.length_nil, Nat.add_zero] at hcount
      rw [← hcount]
      exact Or.inl (pullWhileFrom_past p pulled after)
  | cons c common ih =>
      have hnext : pulled + 1 + common.length = count := by
        rw [← hcount, List.length_cons]
        omega
      rw [List.map_cons, List.cons_append, List.cons_append, pullWhileFrom, pullWhileFrom]
      split
      · exact (ih hnext).imp_right fun h => ⟨congrArg (c :: ·) h.left, h.right⟩
      · exact Or.inr ⟨rfl, rfl, rfl, common, after, others, rfl, rfl, hnext⟩

theorem skipLayoutFrom_shares (inComment : Bool) (c : Char) {count pulled : Nat}
    {common : List Char} (hcount : pulled + common.length = count)
    (after others : List (Option Char)) :
    (skipLayoutFrom inComment c pulled (common.map some ++ after)).Past count ∨
      (skipLayoutFrom inComment c pulled (common.map some ++ after)).Shares count
        (skipLayoutFrom inComment c pulled (common.map some ++ others)) := by
  induction common generalizing inComment c pulled with
  | nil =>
      rw [List.length_nil, Nat.add_zero] at hcount
      cases hstep : layoutStep? inComment c with
      | none =>
          right
          unfold skipLayoutFrom
          rw [hstep]
          exact ⟨rfl, rfl, [], after, others, rfl, rfl, hcount⟩
      | some inside =>
          left
          unfold skipLayoutFrom
          rw [hstep]
          rcases after with _ | ⟨_ | d, rest⟩
          · exact Or.inr rfl
          · exact Or.inr rfl
          · rcases skipLayoutFrom_asks inside d (pulled + 1) rest with ⟨got, hgot⟩
            exact past_of_asks hgot (Or.inl (hcount ▸ Nat.lt_succ_self pulled))
  | cons d common ih =>
      have hnext : pulled + 1 + common.length = count := by
        rw [← hcount, List.length_cons]
        omega
      unfold skipLayoutFrom
      cases hstep : layoutStep? inComment c with
      | none =>
          exact Or.inr ⟨rfl, rfl, d :: common, after, others, rfl, rfl, hcount⟩
      | some inside => exact ih inside d hnext

theorem skipLayout_shares {count : Nat} {cursor other : Cursor}
    (h : cursor.Shares count other) :
    cursor.skipLayout.Past count ∨ cursor.skipLayout.Shares count other.skipLayout := by
  rcases h.answers with ⟨common, after, others, hanswers, hothers, hcount⟩
  have hlookahead := h.lookahead
  cases hlook : cursor.lookahead with
  | none =>
      left
      rw [skipLayout, hlook]
      exact Or.inr hlook
  | some c =>
      rw [hlook] at hlookahead
      rw [skipLayout, skipLayout, hlook, ← hlookahead]
      dsimp only
      rw [hanswers, hothers, ← h.pulled]
      exact skipLayoutFrom_shares false c hcount after others

theorem pullWhile_shares (p : Char -> Bool) {count : Nat} {cursor other : Cursor}
    (h : cursor.Shares count other) :
    (cursor.pullWhile p).2.Past count ∨
      (cursor.pullWhile p).1 = (other.pullWhile p).1 ∧
        (cursor.pullWhile p).2.Shares count (other.pullWhile p).2 := by
  rcases h.answers with ⟨common, after, others, hanswers, hothers, hcount⟩
  rw [pullWhile, pullWhile, hanswers, hothers, ← h.pulled]
  exact pullWhileFrom_shares p hcount after others

end Cursor

namespace Scanner

structure Shares (count : Nat) (scanner other : Scanner) : Prop where
  file : scanner.file = other.file
  cursor : scanner.cursor.Shares count other.cursor

theorem next_past {count : Nat} {scanner : Scanner} (h : scanner.cursor.Past count) :
    scanner.next.2.cursor.Past count := by
  rcases next_asks scanner with ⟨got, hgot⟩
  exact Cursor.past_of_asks hgot h

theorem next_past_of_skipLayout {count : Nat} {scanner : Scanner}
    (h : scanner.cursor.skipLayout.Past count) : scanner.next.2.cursor.Past count := by
  cases hlook : scanner.cursor.skipLayout.lookahead with
  | none =>
      simp only [next, hlook]
      exact h
  | some first =>
      rcases Cursor.pullWhile_asks hlook (Token.continues first) with ⟨got, hgot⟩
      simp only [next, hlook]
      exact Cursor.past_of_asks hgot h

/-- Scanners give the same token, or the first one goes past what they share. -/
theorem next_shares {count : Nat} {scanner other : Scanner}
    (h : scanner.Shares count other) :
    scanner.next.2.cursor.Past count ∨
      scanner.next.1 = other.next.1 ∧ scanner.next.2.Shares count other.next.2 := by
  rcases Cursor.skipLayout_shares h.cursor with hpast | hskip
  · exact Or.inl (next_past_of_skipLayout hpast)
  · have hlookahead := hskip.lookahead
    cases hlook : scanner.cursor.skipLayout.lookahead with
    | none => exact Or.inl (next_past_of_skipLayout (Or.inr hlook))
    | some first =>
        rw [hlook] at hlookahead
        have hstart := Cursor.offset_of_shares hskip
        rcases Cursor.pullWhile_shares (Token.continues first) hskip with
          hpast | ⟨hrun, hshares⟩
        · left
          simp only [next, hlook]
          exact hpast
        · right
          have hstop := Cursor.offset_of_shares hshares
          simp only [next, hlook, ← hlookahead]
          refine ⟨?_, h.file, hshares⟩
          rw [hrun, hstart, hstop, h.file]

end Scanner
end Kaleidoscope

import Kaleidoscope.Scanner

/-!
# Unread characters

A cursor is seen here as the list of characters that it has not used and the
number of characters of its whole input.  Every operation of a cursor and of a
scanner is described on that view, and nothing else of a source ever matters:
not how the characters arrive, and not what a source would answer after it has
once answered with nothing.
-/

namespace Kaleidoscope
namespace Source

/-- The characters of a list of answers up to the first that is nothing. -/
def charsOf : List (Option Char) -> List Char
  | [] => []
  | none :: _ => []
  | some c :: rest => c :: charsOf rest

theorem charsOf_map_some (text : List Char) : charsOf (text.map some) = text := by
  induction text with
  | nil => rfl
  | cons c rest ih =>
      rw [List.map_cons, charsOf, ih]

end Source

namespace Position

def before (total left : Nat) : Nat :=
  match left with
  | 0 => clamp total
  | following + 1 => clamp (total - following) - 1

theorem before_eq_sub {total : Nat} (h : total ≤ maxOffset) (left : Nat) :
    Position.before total left = total - left := by
  cases left with
  | zero =>
      show min total maxOffset = total
      omega
  | succ following =>
      show min (total - following) maxOffset - 1 = total - (following + 1)
      omega

end Position

namespace Cursor

def unread (cursor : Cursor) : List Char :=
  match cursor.lookahead with
  | none => []
  | some c => c :: Source.charsOf cursor.source.answers

def total (cursor : Cursor) : Nat :=
  match cursor.lookahead with
  | none => cursor.pulled
  | some _ => cursor.pulled + (Source.charsOf cursor.source.answers).length

theorem unread_of_none {cursor : Cursor} (h : cursor.lookahead = none) :
    cursor.unread = [] := by
  rw [unread, h]

theorem unread_of_some {cursor : Cursor} {c : Char}
    (h : cursor.lookahead = some c) :
    cursor.unread = c :: Source.charsOf cursor.source.answers := by
  rw [unread, h]

theorem total_of_some {cursor : Cursor} {c : Char}
    (h : cursor.lookahead = some c) :
    cursor.total =
      cursor.pulled + (Source.charsOf cursor.source.answers).length := by
  rw [total, h]

theorem offset_eq (cursor : Cursor) :
    cursor.offset = Position.before cursor.total cursor.unread.length := by
  unfold offset unread total
  cases cursor.lookahead with
  | none => rfl
  | some c =>
      simp [Position.before]

/-!
# Runs of characters
-/

theorem pullWhileFrom_fst (p : Char -> Bool) (pulled : Nat)
    (answers : List (Option Char)) :
    (pullWhileFrom p pulled answers).1 = (Source.charsOf answers).takeWhile p := by
  fun_induction pullWhileFrom p pulled answers with
  | case1 => rfl
  | case2 => rfl
  | case3 pulled c rest hc run ih =>
      rw [Source.charsOf, List.takeWhile_cons_of_pos hc, ← ih]
  | case4 pulled c rest hc =>
      rw [Source.charsOf, List.takeWhile_cons_of_neg hc]

theorem pullWhileFrom_unread (p : Char -> Bool) (pulled : Nat)
    (answers : List (Option Char)) :
    (pullWhileFrom p pulled answers).2.unread =
      (Source.charsOf answers).dropWhile p := by
  fun_induction pullWhileFrom p pulled answers with
  | case1 => rfl
  | case2 => rfl
  | case3 pulled c rest hc run ih =>
      rw [Source.charsOf, List.dropWhile_cons_of_pos hc, ← ih]
  | case4 pulled c rest hc =>
      rw [Source.charsOf, List.dropWhile_cons_of_neg hc]
      rfl

theorem pullWhileFrom_total (p : Char -> Bool) (pulled : Nat)
    (answers : List (Option Char)) :
    (pullWhileFrom p pulled answers).2.total =
      pulled + (Source.charsOf answers).length := by
  fun_induction pullWhileFrom p pulled answers with
  | case1 => rfl
  | case2 => rfl
  | case3 pulled c rest hc run ih =>
      rw [ih, Source.charsOf, List.length_cons]
      omega
  | case4 pulled c rest hc =>
      simp only [total, Source.charsOf, List.length_cons]
      omega

theorem pullWhileFrom_pending (p : Char -> Bool) (pulled : Nat)
    (answers : List (Option Char)) :
    (pullWhileFrom p pulled answers).2.pending ≤ answers.length := by
  fun_induction pullWhileFrom p pulled answers with
  | case1 => exact Nat.le_refl _
  | case2 => exact Nat.zero_le _
  | case3 pulled c rest hc run ih =>
      exact Nat.le_succ_of_le ih
  | case4 pulled c rest hc => exact Nat.le_refl _

/-!
# Layout
-/

def dropLayout (inComment : Bool) : List Char -> List Char
  | [] => []
  | c :: rest =>
      match layoutStep? inComment c with
      | none => c :: rest
      | some inComment => dropLayout inComment rest

theorem skipLayoutFrom_unread (inComment : Bool) (c : Char) (pulled : Nat)
    (answers : List (Option Char)) :
    (skipLayoutFrom inComment c pulled answers).unread =
      dropLayout inComment (c :: Source.charsOf answers) := by
  fun_induction skipLayoutFrom inComment c pulled answers with
  | case1 inComment c pulled answers hstep =>
      rw [dropLayout, hstep]
      rfl
  | case2 inComment c pulled inside hstep =>
      rw [dropLayout, hstep]
      rfl
  | case3 inComment c pulled inside hstep rest =>
      rw [dropLayout, hstep]
      rfl
  | case4 inComment c pulled inside hstep d rest ih =>
      rw [dropLayout, hstep, ih]
      rfl

theorem skipLayoutFrom_total (inComment : Bool) (c : Char) (pulled : Nat)
    (answers : List (Option Char)) :
    (skipLayoutFrom inComment c pulled answers).total =
      pulled + (Source.charsOf answers).length := by
  fun_induction skipLayoutFrom inComment c pulled answers with
  | case1 => rfl
  | case2 => rfl
  | case3 => rfl
  | case4 inComment c pulled inside hstep d rest ih =>
      rw [ih, Source.charsOf, List.length_cons]
      omega

theorem skipLayoutFrom_pending (inComment : Bool) (c : Char) (pulled : Nat)
    (answers : List (Option Char)) :
    (skipLayoutFrom inComment c pulled answers).pending ≤ answers.length + 1 := by
  fun_induction skipLayoutFrom inComment c pulled answers with
  | case1 => exact Nat.le_refl _
  | case2 => exact Nat.zero_le _
  | case3 => exact Nat.zero_le _
  | case4 inComment c pulled inside hstep d rest ih =>
      exact Nat.le_succ_of_le ih

theorem skipLayout_unread (cursor : Cursor) :
    cursor.skipLayout.unread = dropLayout false cursor.unread := by
  cases hlook : cursor.lookahead with
  | none =>
      rw [skipLayout, hlook, unread_of_none hlook]
      rfl
  | some c =>
      rw [skipLayout, hlook, unread_of_some hlook]
      exact skipLayoutFrom_unread false c cursor.pulled cursor.source.answers

theorem skipLayout_total (cursor : Cursor) :
    cursor.skipLayout.total = cursor.total := by
  cases hlook : cursor.lookahead with
  | none =>
      rw [skipLayout, hlook]
  | some c =>
      rw [skipLayout, hlook, total_of_some hlook]
      exact skipLayoutFrom_total false c cursor.pulled cursor.source.answers

theorem skipLayout_pending (cursor : Cursor) :
    cursor.skipLayout.pending ≤ cursor.pending := by
  unfold skipLayout
  cases hlook : cursor.lookahead with
  | none => exact Nat.le_refl _
  | some c =>
      simpa [pending, hlook] using
        skipLayoutFrom_pending false c cursor.pulled cursor.source.answers

end Cursor
end Kaleidoscope

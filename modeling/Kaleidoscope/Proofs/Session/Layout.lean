import Kaleidoscope.Proofs.Scanner.Insertion
import Kaleidoscope.Proofs.Session.Resynchronisation

/-!
# Sessions and layout

Blank characters and comments between tokens do not matter: with more of them a
session reads the same units and finds the same errors, and an error is further
on just if the token that it describes is.
-/

namespace Kaleidoscope

theorem relocates_shiftFrom (place distance : Nat) :
    Session.Relocates (Token.shiftFrom place distance)
      (Position.shiftFrom place distance) where
  kind token := by
    unfold Token.shiftFrom
    split
    · rfl
    · rfl
  lexeme token := by
    unfold Token.shiftFrom
    split
    · rfl
    · rfl
  start token := Token.shiftFrom_start place distance token

/--
Layout at the start or the end of a token leaves the units of a session and its
errors as they are, but that errors from there on are behind the layout.
-/
theorem parseSource_layout {before layout after : String}
    (hlayout : IsLayout layout.toList)
    (hplace : exists token, token ∈ tokenize (before ++ after) Scanner.unnamed ∧
      (before.toList.length = token.start ∨ before.toList.length = token.stop))
    (h : (before ++ layout ++ after).toList.length < Nat.pow 2 32) :
    parseSource (before ++ layout ++ after) =
      (parseSource (before ++ after)).map (Outcome.relocate
        (Position.shiftFrom before.toList.length layout.toList.length)) := by
  have htokens := Parser.ofText_tokens (before ++ layout ++ after)
  rw [tokenize_layout hlayout hplace h] at htokens
  exact outcomes_of_relocated (relocates_shiftFrom _ _) rfl (Parser.start_lasting _)
    htokens

theorem parseSource_layout_comment :
    parseSource ("f(a" ++ "# first\n\t" ++ " b # open") =
      (parseSource ("f(a" ++ " b # open")).map
        (Outcome.relocate (Position.shiftFrom 3 9)) := by
  have hinside : forall c, c ∈ " first".toList -> ¬ IsLineEnd c := by
    simp [IsLineEnd]
  have hblank : IsLayout ['\t'] :=
    IsLayout.blank (by simp [IsBlank]) IsLayout.nothing
  have hend : IsLineEnd '\n' := by
    simp [IsLineEnd]
  have hlayout : IsLayout "# first\n\t".toList :=
    IsLayout.comment hinside hend hblank
  exact parseSource_layout hlayout (by decide) (by decide)

end Kaleidoscope

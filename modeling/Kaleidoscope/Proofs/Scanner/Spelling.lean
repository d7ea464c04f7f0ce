import Kaleidoscope.Proofs.Scanner.Tokenization

/-!
# Spelled kinds

A text spells a list of kinds if these are the kinds of its tokens, wherever it
stands.  A lexeme in front of a text that separates it from what follows adds
its own kind to the list.
-/

namespace Kaleidoscope

/-- The kinds of the tokens of a text, without the end of the input. -/
inductive Spells : List Char -> List Token.Kind -> Prop where
  | done {text : List Char} :
      Cursor.dropLayout false text = [] -> Spells text []
  | token {text : List Char} {first : Char} {rest : List Char}
      {kinds : List Token.Kind} :
      Cursor.dropLayout false text = first :: rest ->
      Spells (rest.dropWhile (Token.continues first)) kinds ->
      Spells text
        (.ofLexeme (first :: rest.takeWhile (Token.continues first)) :: kinds)

theorem lexes_of_spells {text : List Char} {kinds : List Token.Kind}
    (h : Spells text kinds) (total : Nat) (file : String) :
    exists tokens, Scanner.Lexes total file text tokens ∧
      tokens.map Token.kind = kinds ++ [.endOfInput] := by
  induction h with
  | done hdrop => exact ⟨_, Scanner.Lexes.done hdrop, rfl⟩
  | token hdrop _ ih =>
      rcases ih with ⟨tokens, hlexes, hkinds⟩
      exact ⟨_, Scanner.Lexes.token hdrop hlexes, congrArg (_ :: ·) hkinds⟩

theorem tokenize_of_spells {text file : String} {kinds : List Token.Kind}
    (h : Spells text.toList kinds) :
    (tokenize text file).map Token.kind = kinds ++ [.endOfInput] := by
  rcases lexes_of_spells h text.toList.length file with ⟨tokens, hlexes, hkinds⟩
  rw [Scanner.lexes_unique (tokenize_lexes text file) hlexes]
  exact hkinds

/-!
# Lexemes in front of a text
-/

def Separates (text : List Char) : Prop :=
  forall c, text.head? = some c ->
    c.isAlphanum = false ∧ Token.isNumberPart c = false

theorem separates_nil : Separates [] := by
  intro c h
  cases h

theorem separates_cons {c : Char} (halphanum : c.isAlphanum = false)
    (hnumber : Token.isNumberPart c = false) (rest : List Char) :
    Separates (c :: rest) := by
  intro d h
  injection h with hsame
  rw [← hsame]
  exact ⟨halphanum, hnumber⟩

theorem Token.not_continues {first c : Char} (halphanum : c.isAlphanum = false)
    (hnumber : isNumberPart c = false) : continues first c = false := by
  rw [continues, halphanum, hnumber, Bool.and_false, ite_self]

theorem spells_lexeme {lexeme following : List Char} {kind : Token.Kind}
    {kinds : List Token.Kind} (h : Token.HasKind lexeme kind)
    (hstop : forall first c, following.head? = some c ->
      lexeme.head? = some first -> Token.continues first c = false)
    (hrest : Spells following kinds) : Spells (lexeme ++ following) (kind :: kinds) := by
  rcases Token.isLexeme_of_hasKind h with ⟨first, run, hcons, hlexeme⟩
  rw [hcons] at hstop ⊢
  have hrun := Token.takeWhile_run (fun c hc => hlexeme.continues hc)
    (fun c hc => hstop first c hc rfl)
  have hdrop : Cursor.dropLayout false (first :: run ++ following) =
      first :: (run ++ following) :=
    Cursor.dropLayout_of_atLexeme
      (atLexeme_cons hlexeme.not_blank hlexeme.not_hash _)
  rw [← hrun.right] at hrest
  have hspells := Spells.token hdrop hrest
  rw [hrun.left, ← hlexeme.kind_eq] at hspells
  exact hspells

theorem spells_word {lexeme following : List Char} {kind : Token.Kind}
    {kinds : List Token.Kind} (h : Token.HasKind lexeme kind)
    (hseparates : Separates following) (hrest : Spells following kinds) :
    Spells (lexeme ++ following) (kind :: kinds) := by
  refine spells_lexeme h ?_ hrest
  intro first c hc _
  rcases hseparates c hc with ⟨halphanum, hnumber⟩
  exact Token.not_continues halphanum hnumber

theorem spells_character {c : Char} {following : List Char}
    {kinds : List Token.Kind} (h : Token.HasKind [c] (.character c))
    (hrest : Spells following kinds) :
    Spells (c :: following) (.character c :: kinds) := by
  have hlexeme := Token.isLexeme_ofLexeme h
  rw [← List.singleton_append]
  refine spells_lexeme h ?_ hrest
  intro first d _ hfirst
  injection hfirst with hsame
  rw [← hsame]
  cases hcontinues : Token.continues c d with
  | false => rfl
  | true => exact ((hlexeme.goesOn_iff d).mpr hcontinues).elim

theorem spells_blank {c : Char} {following : List Char} {kinds : List Token.Kind}
    (h : IsBlank c) (hrest : Spells following kinds) :
    Spells (c :: following) kinds := by
  have hsame := Cursor.dropLayout_blank h following
  cases hrest with
  | done hdrop => exact Spells.done (hsame.trans hdrop)
  | token hdrop hrest => exact Spells.token (hsame.trans hdrop) hrest

end Kaleidoscope

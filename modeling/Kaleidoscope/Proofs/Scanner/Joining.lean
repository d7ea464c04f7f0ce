import Mathlib.Data.List.TakeWhile
import Kaleidoscope.Proofs.Scanner.Lexemes

/-!
# Joined texts

A line feed ends every lexeme and every comment, so the tokens of a text with
another one after a line feed are the tokens of both, those of the second at
higher offsets.
-/

namespace Kaleidoscope

def Position.shift (distance : Nat) (position : Position) : Position :=
  ⟨position.offset + distance, position.file⟩

def Token.shift (distance : Nat) (token : Token) : Token :=
  { token with
    span := ⟨token.span.start.shift distance, token.span.stop.shift distance⟩ }

/-!
# Layout and lexemes of joined texts
-/

theorem Cursor.dropLayout_append_of_cons {inComment : Bool} {text : List Char}
    {first : Char} {rest : List Char} (h : dropLayout inComment text = first :: rest)
    (others : List Char) :
    dropLayout inComment (text ++ others) = first :: (rest ++ others) := by
  induction text generalizing inComment with
  | nil => cases h
  | cons c text ih =>
      rw [List.cons_append, dropLayout]
      unfold dropLayout at h
      cases hstep : layoutStep? inComment c with
      | none =>
          rw [hstep] at h
          injection h with hfirst hrest
          rw [hfirst, hrest]
      | some inside =>
          rw [hstep] at h
          exact ih h

theorem Cursor.dropLayout_lineFeed (inComment : Bool) (text : List Char) :
    dropLayout inComment ('\n' :: text) = dropLayout false text := by
  cases inComment with
  | true => rfl
  | false => rfl

theorem Cursor.dropLayout_append_of_nil {inComment : Bool} {text : List Char}
    (h : dropLayout inComment text = []) :
    exists inside, forall others,
      dropLayout inComment (text ++ others) = dropLayout inside others := by
  induction text generalizing inComment with
  | nil => exact ⟨inComment, fun _ => rfl⟩
  | cons c text ih =>
      unfold dropLayout at h
      cases hstep : layoutStep? inComment c with
      | none =>
          rw [hstep] at h
          cases h
      | some inside =>
          rw [hstep] at h
          rcases ih h with ⟨last, hlast⟩
          exists last
          intro others
          rw [List.cons_append, dropLayout, hstep]
          exact hlast others

theorem Token.continues_lineFeed (first : Char) : continues first '\n' = false := by
  have halphanum : '\n'.isAlphanum = false := rfl
  have hnumber : isNumberPart '\n' = false := rfl
  rw [continues, halphanum, hnumber, Bool.and_false, ite_self]

theorem run_append {p : Char -> Bool} {text following : List Char}
    (hstop : forall c, (text.dropWhile p ++ following).head? = some c -> p c = false) :
    (text ++ following).takeWhile p = text.takeWhile p ∧
      (text ++ following).dropWhile p = text.dropWhile p ++ following := by
  have hrun : forall c, c ∈ text.takeWhile p -> p c = true :=
    fun c hc => List.mem_takeWhile_imp hc
  have hsplit := Token.takeWhile_run hrun hstop
  rw [← List.append_assoc, List.takeWhile_append_dropWhile] at hsplit
  exact hsplit

theorem run_before {p : Char -> Bool} {c : Char} (hc : p c = false)
    (text others : List Char) :
    (text ++ c :: others).takeWhile p = text.takeWhile p ∧
      (text ++ c :: others).dropWhile p = text.dropWhile p ++ c :: others := by
  apply run_append
  intro d hd
  cases hdrop : text.dropWhile p with
  | nil =>
      rw [hdrop] at hd
      injection hd with hsame
      rw [← hsame]
      exact hc
  | cons e rest =>
      have hhead : (text.dropWhile p).head? = some d := by
        rw [hdrop] at hd ⊢
        exact hd
      exact Token.dropWhile_stop hhead

/-!
# Tokens of joined texts
-/

namespace Token

theorem ofLexeme_lexeme_ne_empty {first : Char} {rest : List Char}
    {start stop : Nat} {file : String} :
    (ofLexeme (first :: rest) start stop file).lexeme ≠ "" := by
  intro h
  have hlist := congrArg String.toList h
  rw [ofLexeme, String.toList_ofList] at hlist
  cases hlist

theorem beginning_append {total : Nat} {file : String} {rest others : List Char}
    (htotal : total + others.length + 1 ≤ Position.maxOffset)
    (hrest : rest.length < total) (first : Char) :
    beginning (total + others.length + 1) file first (rest ++ '\n' :: others) =
      beginning total file first rest := by
  rcases run_before (continues_lineFeed first) rest others with ⟨hrun, hlast⟩
  have hdrop := List.length_dropWhile_le (continues first) rest
  have hsmall : total ≤ Position.maxOffset := by omega
  rw [beginning, beginning, hrun, hlast]
  congr 1
  · rw [Position.before_eq_sub htotal, Position.before_eq_sub hsmall]
    rw [List.length_append, List.length_cons]
    omega
  · rw [Position.before_eq_sub htotal, Position.before_eq_sub hsmall]
    rw [List.length_append, List.length_cons]
    omega

theorem atEnd_shift {total distance : Nat} {file : String}
    (htotal : total + distance ≤ Position.maxOffset) :
    (atEnd total file).shift distance = atEnd (total + distance) file := by
  have hsmall : total ≤ Position.maxOffset := by omega
  simp only [atEnd, ofLexeme, shift, Position.shift, Position.before_eq_sub htotal,
    Position.before_eq_sub hsmall, Nat.sub_zero]

theorem beginning_shift {total distance : Nat} {file : String} {rest : List Char}
    (htotal : total + distance ≤ Position.maxOffset) (hrest : rest.length < total)
    (first : Char) :
    (beginning total file first rest).shift distance =
      beginning (total + distance) file first rest := by
  have hdrop := List.length_dropWhile_le (continues first) rest
  have hsmall : total ≤ Position.maxOffset := by omega
  simp only [beginning, ofLexeme, shift, Position.shift,
    Position.before_eq_sub htotal, Position.before_eq_sub hsmall]
  congr 3
  · omega
  · omega

end Token

namespace Scanner

theorem lexes_of_dropLayout {total : Nat} {file : String} {text other : List Char}
    {tokens : List Token}
    (hsame : Cursor.dropLayout false other = Cursor.dropLayout false text)
    (h : Lexes total file text tokens) : Lexes total file other tokens := by
  cases h with
  | done hdrop => exact Lexes.done (hsame.trans hdrop)
  | token hdrop hrest => exact Lexes.token (hsame.trans hdrop) hrest

theorem dropLayout_length_le (inComment : Bool) (text : List Char) :
    (Cursor.dropLayout inComment text).length ≤ text.length := by
  induction text generalizing inComment with
  | nil => exact Nat.le_refl _
  | cons c text ih =>
      unfold Cursor.dropLayout
      cases Cursor.layoutStep? inComment c with
      | none => exact Nat.le_refl _
      | some inside => exact Nat.le_succ_of_le (ih inside)

/-- Another text may follow after a line feed. -/
theorem lexes_append {total : Nat} {file : String} {text : List Char}
    {tokens : List Token} (h : Lexes total file text tokens)
    (htext : text.length ≤ total) :
    exists body, tokens = body ++ [Token.atEnd total file] ∧
      (forall token, token ∈ body -> token.lexeme ≠ "") ∧
      forall {others : List Char} {further : List Token},
        total + others.length + 1 ≤ Position.maxOffset ->
        Lexes (total + others.length + 1) file others further ->
        Lexes (total + others.length + 1) file (text ++ '\n' :: others)
          (body ++ further) := by
  induction h with
  | @done text hdrop =>
      rcases Cursor.dropLayout_append_of_nil hdrop with ⟨inside, happend⟩
      refine ⟨[], rfl, fun token htoken => absurd htoken List.not_mem_nil, ?_⟩
      intro others further _ hfurther
      have hsame := (happend ('\n' :: others)).trans
        (Cursor.dropLayout_lineFeed inside others)
      exact lexes_of_dropLayout hsame hfurther
  | @token text first rest tokens hdrop _ ih =>
      have hlength := dropLayout_length_le false text
      have hrest := List.length_dropWhile_le (Token.continues first) rest
      rw [hdrop, List.length_cons] at hlength
      rcases ih (by omega) with ⟨body, hbody, hlexemes, happend⟩
      refine ⟨Token.beginning total file first rest :: body,
        congrArg (_ :: ·) hbody, ?_, ?_⟩
      · intro token htoken
        rcases List.mem_cons.mp htoken with hsame | htoken
        · rw [hsame]
          exact Token.ofLexeme_lexeme_ne_empty
        · exact hlexemes token htoken
      · intro others further htotal hfurther
        rw [List.cons_append, ← Token.beginning_append htotal (by omega) first]
        apply Lexes.token (Cursor.dropLayout_append_of_cons hdrop _)
        rw [(run_before (Token.continues_lineFeed first) rest others).right]
        exact happend htotal hfurther

theorem lexes_shift {total distance : Nat} {file : String} {text : List Char}
    {tokens : List Token} (h : Lexes total file text tokens)
    (htext : text.length ≤ total)
    (htotal : total + distance ≤ Position.maxOffset) :
    Lexes (total + distance) file text (tokens.map (Token.shift distance)) := by
  induction h with
  | done hdrop =>
      rw [List.map_singleton, Token.atEnd_shift htotal]
      exact Lexes.done hdrop
  | @token text first rest tokens hdrop _ ih =>
      have hlength := dropLayout_length_le false text
      have hrest := List.length_dropWhile_le (Token.continues first) rest
      rw [hdrop, List.length_cons] at hlength
      rw [List.map_cons, Token.beginning_shift htotal (by omega) first]
      exact Lexes.token hdrop (ih (by omega))

end Scanner
end Kaleidoscope

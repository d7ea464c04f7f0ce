import Kaleidoscope.Proofs.Scanner.Unread

/-!
# Lexemes of a text

The tokens of a scanner are determined by its unread characters, the length of
its input and the name of its file.  The relation `Lexes` says which tokens
these are, one lexeme after the other, without any cursor.
-/

namespace Kaleidoscope
namespace Token

def atEnd (total : Nat) (file : String) : Token :=
  .ofLexeme [] (Position.before total 0) (Position.before total 0) file

def beginning (total : Nat) (file : String) (first : Char) (rest : List Char) :
    Token :=
  .ofLexeme (first :: rest.takeWhile (continues first))
    (Position.before total (rest.length + 1))
    (Position.before total (rest.dropWhile (continues first)).length) file

theorem kind_ofWord_ne_endOfInput (word : String) :
    Kind.ofWord word ≠ .endOfInput := by
  unfold Kind.ofWord Kind.keyword?
  split
  · intro h
    cases h
  · split
    · intro h
      cases h
    · intro h
      cases h

theorem kind_ofLexeme_cons_ne_endOfInput (first : Char) (rest : List Char) :
    Kind.ofLexeme (first :: rest) ≠ .endOfInput := by
  rw [Kind.ofLexeme]
  by_cases halpha : first.isAlpha = true
  · rw [if_pos halpha]
    exact kind_ofWord_ne_endOfInput _
  · rw [if_neg halpha]
    by_cases hnumber : isNumberPart first = true
    · rw [if_pos hnumber]
      intro h
      cases h
    · rw [if_neg hnumber]
      intro h
      cases h

theorem atEnd_isEnd (total : Nat) (file : String) :
    (atEnd total file).isEnd = true := rfl

theorem beginning_isEnd (total : Nat) (file : String) (first : Char)
    (rest : List Char) : (beginning total file first rest).isEnd = false := by
  have hkind := kind_ofLexeme_cons_ne_endOfInput first
    (rest.takeWhile (continues first))
  simpa [isEnd, beginning, ofLexeme] using hkind

/-!
# Longest lexemes
-/

theorem takeWhile_run {p : Char -> Bool} {run following : List Char}
    (hrun : forall c, c ∈ run -> p c = true)
    (hstop : forall c, following.head? = some c -> p c = false) :
    (run ++ following).takeWhile p = run ∧ (run ++ following).dropWhile p = following := by
  rw [List.takeWhile_append_of_pos hrun, List.dropWhile_append_of_pos hrun]
  cases following with
  | nil => simp
  | cons c following =>
      have hc := hstop c rfl
      rw [List.takeWhile_cons_of_neg (by simp [hc]),
        List.dropWhile_cons_of_neg (by simp [hc]), List.append_nil]
      exact ⟨rfl, rfl⟩

theorem dropWhile_stop {p : Char -> Bool} {text : List Char} {c : Char}
    (h : (text.dropWhile p).head? = some c) : p c = false := by
  have hhead := List.head?_dropWhile_not p text
  rw [h] at hhead
  exact hhead

end Token

namespace Scanner

/-- The tokens of an input of which the given characters are unread. -/
inductive Lexes (total : Nat) (file : String) :
    List Char -> List Token -> Prop where
  | done {text : List Char} :
      Cursor.dropLayout false text = [] ->
      Lexes total file text [Token.atEnd total file]
  | token {text : List Char} {first : Char} {rest : List Char}
      {tokens : List Token} :
      Cursor.dropLayout false text = first :: rest ->
      Lexes total file (rest.dropWhile (Token.continues first)) tokens ->
      Lexes total file text (Token.beginning total file first rest :: tokens)

theorem lexes_unique {total : Nat} {file : String} {text : List Char}
    {tokens others : List Token}
    (h : Lexes total file text tokens) (hother : Lexes total file text others) :
    tokens = others := by
  induction h generalizing others with
  | done hdrop =>
      cases hother with
      | done _ => rfl
      | token hdrop' _ =>
          rw [hdrop] at hdrop'
          cases hdrop'
  | token hdrop _ ih =>
      cases hother with
      | done hdrop' =>
          rw [hdrop] at hdrop'
          cases hdrop'
      | token hdrop' hrest =>
          rw [hdrop] at hdrop'
          cases hdrop'
          rw [ih hrest]

/-!
# One token of a scanner
-/

theorem skipLayout_lookahead_none {cursor : Cursor}
    (h : Cursor.dropLayout false cursor.unread = []) :
    cursor.skipLayout.lookahead = none := by
  rw [← Cursor.skipLayout_unread] at h
  cases hlook : cursor.skipLayout.lookahead with
  | none => rfl
  | some c =>
      rw [Cursor.unread_of_some hlook] at h
      cases h

theorem skipLayout_lookahead_some {cursor : Cursor} {first : Char}
    {rest : List Char}
    (h : Cursor.dropLayout false cursor.unread = first :: rest) :
    cursor.skipLayout.lookahead = some first ∧
      Source.charsOf cursor.skipLayout.source.answers = rest := by
  rw [← Cursor.skipLayout_unread] at h
  cases hlook : cursor.skipLayout.lookahead with
  | none =>
      rw [Cursor.unread_of_none hlook] at h
      cases h
  | some c =>
      rw [Cursor.unread_of_some hlook] at h
      injection h with hfirst hrest
      exact ⟨by rw [hfirst], hrest⟩

theorem next_of_dropLayout_nil {scanner : Scanner}
    (h : Cursor.dropLayout false scanner.cursor.unread = []) :
    scanner.next =
      (Token.atEnd scanner.cursor.total scanner.file,
        { scanner with cursor := scanner.cursor.skipLayout }) := by
  have hlook := skipLayout_lookahead_none h
  have hoffset : scanner.cursor.skipLayout.offset =
      Position.before scanner.cursor.total 0 := by
    rw [Cursor.offset_eq, Cursor.skipLayout_total, Cursor.unread_of_none hlook,
      List.length_nil]
  simp only [next, hlook, hoffset]
  rfl

theorem next_of_dropLayout_cons {scanner : Scanner} {first : Char}
    {rest : List Char}
    (h : Cursor.dropLayout false scanner.cursor.unread = first :: rest) :
    scanner.next =
      (Token.beginning scanner.cursor.total scanner.file first rest,
        { scanner with
          cursor := (scanner.cursor.skipLayout.pullWhile
            (Token.continues first)).2 }) := by
  rcases skipLayout_lookahead_some h with ⟨hlook, hrest⟩
  have htotal : scanner.cursor.skipLayout.total = scanner.cursor.total :=
    Cursor.skipLayout_total scanner.cursor
  have hstart : scanner.cursor.skipLayout.offset =
      Position.before scanner.cursor.total (rest.length + 1) := by
    rw [Cursor.offset_eq, htotal, Cursor.unread_of_some hlook, hrest,
      List.length_cons]
  have hstop : (scanner.cursor.skipLayout.pullWhile
      (Token.continues first)).2.offset =
      Position.before scanner.cursor.total
        (rest.dropWhile (Token.continues first)).length := by
    rw [Cursor.offset_eq, Cursor.pullWhile, Cursor.pullWhileFrom_unread,
      Cursor.pullWhileFrom_total, ← Cursor.total_of_some hlook, htotal, hrest]
  have hrun : (scanner.cursor.skipLayout.pullWhile
      (Token.continues first)).1 = rest.takeWhile (Token.continues first) := by
    rw [Cursor.pullWhile, Cursor.pullWhileFrom_fst, hrest]
  simp only [next, hlook, hstart, hstop, hrun]
  rfl

theorem next_unread_of_cons {scanner : Scanner} {first : Char}
    {rest : List Char}
    (h : Cursor.dropLayout false scanner.cursor.unread = first :: rest) :
    scanner.next.2.cursor.unread = rest.dropWhile (Token.continues first) := by
  rcases skipLayout_lookahead_some h with ⟨_, hrest⟩
  rw [next_of_dropLayout_cons h]
  show (Cursor.pullWhile _ _).2.unread = _
  rw [Cursor.pullWhile, Cursor.pullWhileFrom_unread, hrest]

theorem next_file (scanner : Scanner) : scanner.next.2.file = scanner.file := by
  cases h : Cursor.dropLayout false scanner.cursor.unread with
  | nil => rw [next_of_dropLayout_nil h]
  | cons first rest => rw [next_of_dropLayout_cons h]

theorem next_total (scanner : Scanner) :
    scanner.next.2.cursor.total = scanner.cursor.total := by
  cases h : Cursor.dropLayout false scanner.cursor.unread with
  | nil =>
      rw [next_of_dropLayout_nil h]
      exact Cursor.skipLayout_total scanner.cursor
  | cons first rest =>
      rcases skipLayout_lookahead_some h with ⟨hlook, _⟩
      rw [next_of_dropLayout_cons h]
      show (Cursor.pullWhile _ _).2.total = _
      rw [Cursor.pullWhile, Cursor.pullWhileFrom_total,
        ← Cursor.total_of_some hlook, Cursor.skipLayout_total]

theorem next_isEnd_iff (scanner : Scanner) :
    scanner.next.1.isEnd = true <->
      Cursor.dropLayout false scanner.cursor.unread = [] := by
  cases h : Cursor.dropLayout false scanner.cursor.unread with
  | nil =>
      rw [next_of_dropLayout_nil h]
      simp [Token.atEnd_isEnd]
  | cons first rest =>
      rw [next_of_dropLayout_cons h]
      simp [Token.beginning_isEnd]

theorem next_pending_lt {scanner : Scanner}
    (h : scanner.next.1.isEnd = false) :
    scanner.next.2.cursor.pending < scanner.cursor.pending := by
  cases hdrop : Cursor.dropLayout false scanner.cursor.unread with
  | nil =>
      rw [(next_isEnd_iff scanner).mpr hdrop] at h
      cases h
  | cons first rest =>
      rcases skipLayout_lookahead_some hdrop with ⟨hlook, _⟩
      have hskip := Cursor.skipLayout_pending scanner.cursor
      have hpull := Cursor.pullWhileFrom_pending (Token.continues first)
        scanner.cursor.skipLayout.pulled scanner.cursor.skipLayout.source.answers
      have hsome : scanner.cursor.skipLayout.pending =
          scanner.cursor.skipLayout.source.answers.length + 1 := by
        rw [Cursor.pending, hlook]
      rw [next_of_dropLayout_cons hdrop]
      show (Cursor.pullWhile _ _).2.pending < _
      unfold Cursor.pullWhile
      omega

/-!
# All tokens of a scanner

The bound that the tokens are listed with is never reached, since every token
before the end uses a character.
-/

theorem tokensWithin_of_isEnd (bound : Nat) {scanner : Scanner}
    (h : scanner.next.1.isEnd = true) :
    tokensWithin bound scanner = [scanner.next.1] := by
  cases bound with
  | zero => rfl
  | succ bound => rw [tokensWithin, if_pos h]

theorem tokensWithin_of_not_isEnd (bound : Nat) {scanner : Scanner}
    (h : scanner.next.1.isEnd = false) :
    tokensWithin (bound + 1) scanner =
      scanner.next.1 :: tokensWithin bound scanner.next.2 := by
  rw [tokensWithin, if_neg (by simp [h])]

theorem tokensWithin_eq {bound other : Nat} {scanner : Scanner}
    (hbound : scanner.cursor.pending ≤ bound)
    (hother : scanner.cursor.pending ≤ other) :
    tokensWithin bound scanner = tokensWithin other scanner := by
  induction bound generalizing other scanner with
  | zero =>
      cases hend : scanner.next.1.isEnd with
      | true =>
          rw [tokensWithin_of_isEnd _ hend, tokensWithin_of_isEnd _ hend]
      | false =>
          have hlt := next_pending_lt hend
          omega
  | succ bound ih =>
      cases hend : scanner.next.1.isEnd with
      | true =>
          rw [tokensWithin_of_isEnd _ hend, tokensWithin_of_isEnd _ hend]
      | false =>
          have hlt := next_pending_lt hend
          cases other with
          | zero => omega
          | succ other =>
              rw [tokensWithin_of_not_isEnd _ hend,
                tokensWithin_of_not_isEnd _ hend,
                ih (show _ ≤ bound by omega) (show _ ≤ other by omega)]

theorem tokens_of_isEnd {scanner : Scanner} (h : scanner.next.1.isEnd = true) :
    scanner.tokens = [scanner.next.1] :=
  tokensWithin_of_isEnd _ h

theorem tokens_of_not_isEnd {scanner : Scanner}
    (h : scanner.next.1.isEnd = false) :
    scanner.tokens = scanner.next.1 :: scanner.next.2.tokens := by
  have hlt := next_pending_lt h
  unfold tokens
  cases hbound : scanner.cursor.pending with
  | zero => omega
  | succ bound =>
      rw [tokensWithin_of_not_isEnd bound h,
        tokensWithin_eq (show _ ≤ bound by omega) (Nat.le_refl _)]

theorem tokens_lexes (scanner : Scanner) :
    Lexes scanner.cursor.total scanner.file scanner.cursor.unread
      scanner.tokens := by
  cases hdrop : Cursor.dropLayout false scanner.cursor.unread with
  | nil =>
      rw [tokens_of_isEnd ((next_isEnd_iff scanner).mpr hdrop),
        next_of_dropLayout_nil hdrop]
      exact Lexes.done hdrop
  | cons first rest =>
      have hend : scanner.next.1.isEnd = false := by
        rw [next_of_dropLayout_cons hdrop]
        exact Token.beginning_isEnd _ _ _ _
      have hlt := next_pending_lt hend
      have hrest := tokens_lexes scanner.next.2
      rw [next_total, next_file, next_unread_of_cons hdrop] at hrest
      rw [tokens_of_not_isEnd hend]
      rw [show scanner.next.1 =
        Token.beginning scanner.cursor.total scanner.file first rest by
          rw [next_of_dropLayout_cons hdrop]]
      exact Lexes.token hdrop hrest
termination_by scanner.cursor.pending

theorem next_isEnd_of_isEnd {scanner : Scanner}
    (h : scanner.next.1.isEnd = true) : scanner.next.2.next.1.isEnd = true := by
  have hdrop := (next_isEnd_iff scanner).mp h
  rw [next_isEnd_iff, next_of_dropLayout_nil hdrop]
  show Cursor.dropLayout false scanner.cursor.skipLayout.unread = []
  rw [Cursor.skipLayout_unread, hdrop]
  rfl

end Scanner

/-!
# Tokens of a text
-/

theorem Scanner.start_unread (source : Source) (file : String) :
    (Scanner.start source file).cursor.unread =
      ' ' :: Source.charsOf source.answers := rfl

theorem Scanner.start_total (source : Source) (file : String) :
    (Scanner.start source file).cursor.total =
      (Source.charsOf source.answers).length := by
  simp [Scanner.start, Cursor.start, Cursor.total]

theorem Scanner.lexes_space {total : Nat} {file : String} {text : List Char}
    {tokens : List Token}
    (h : Lexes total file (' ' :: text) tokens) : Lexes total file text tokens := by
  have hspace : Cursor.dropLayout false (' ' :: text) =
      Cursor.dropLayout false text := rfl
  cases h with
  | done hdrop => exact Lexes.done (hspace ▸ hdrop)
  | token hdrop hrest => exact Lexes.token (hspace ▸ hdrop) hrest

/-- The tokens of a source are those of the characters that it answers with. -/
theorem Scanner.start_lexes (source : Source) (file : String) :
    Lexes (Source.charsOf source.answers).length file (Source.charsOf source.answers)
      (start source file).tokens := by
  have h := tokens_lexes (start source file)
  rw [start_total, start_unread] at h
  exact lexes_space h

theorem tokenize_lexes (text file : String) :
    Scanner.Lexes text.toList.length file text.toList (tokenize text file) := by
  have h := Scanner.start_lexes (.ofString text) file
  rw [Source.ofString, Source.ofChars, Source.charsOf_map_some] at h
  exact h

end Kaleidoscope

import Kaleidoscope.Parser.Reply
import Kaleidoscope.Proofs.Scanner.Lexemes

/-!
# Remaining tokens

A parser is seen here as the list of tokens that it has not used, the lookahead
first and the end of the input last.  Using a token drops it from that list, and
the number of tokens before the end measures how far a parser has come.
-/

namespace Kaleidoscope

theorem Token.isEnd_iff (token : Token) :
    token.isEnd = true <-> token.kind = .endOfInput := by
  simp [Token.isEnd]

theorem Token.isCharacter_iff (c : Char) (token : Token) :
    token.isCharacter c = true <-> token.kind = .character c := by
  simp [Token.isCharacter]

namespace Scanner

theorem tokens_ne_nil (scanner : Scanner) : scanner.tokens ≠ [] := by
  cases hend : scanner.next.1.isEnd with
  | true =>
      rw [tokens_of_isEnd hend]
      exact List.cons_ne_nil _ _
  | false =>
      rw [tokens_of_not_isEnd hend]
      exact List.cons_ne_nil _ _

def left (scanner : Scanner) : Nat :=
  scanner.tokens.length - 1

theorem left_of_isEnd {scanner : Scanner} (h : scanner.next.1.isEnd = true) :
    scanner.left = 0 := by
  rw [left, tokens_of_isEnd h]
  rfl

theorem left_of_not_isEnd {scanner : Scanner} (h : scanner.next.1.isEnd = false) :
    scanner.left = scanner.next.2.left + 1 := by
  have hpos := List.length_pos_iff.mpr (tokens_ne_nil scanner.next.2)
  rw [left, left, tokens_of_not_isEnd h, List.length_cons]
  omega

theorem left_le_pending (scanner : Scanner) :
    scanner.left ≤ scanner.cursor.pending := by
  cases hend : scanner.next.1.isEnd with
  | true =>
      rw [left_of_isEnd hend]
      exact Nat.zero_le _
  | false =>
      have hlt := next_pending_lt hend
      have hrest := left_le_pending scanner.next.2
      rw [left_of_not_isEnd hend]
      omega
termination_by scanner.cursor.pending

end Scanner

namespace Parser

/-- The tokens not yet used, up to and including the end of the input. -/
def tokens (parser : Parser) : List Token :=
  if parser.current.isEnd then
    [parser.current]
  else
    parser.current :: parser.scanner.tokens

theorem tokens_of_isEnd {parser : Parser} (h : parser.current.isEnd = true) :
    parser.tokens = [parser.current] := by
  rw [tokens, if_pos h]

theorem advance_tokens (parser : Parser) :
    parser.advance.tokens = parser.scanner.tokens := by
  cases hend : parser.scanner.next.1.isEnd with
  | true =>
      rw [Scanner.tokens_of_isEnd hend]
      exact tokens_of_isEnd hend
  | false =>
      rw [Scanner.tokens_of_not_isEnd hend, tokens, if_neg (by simp [advance, hend])]
      rfl

theorem tokens_of_not_isEnd {parser : Parser} (h : parser.current.isEnd = false) :
    parser.tokens = parser.current :: parser.advance.tokens := by
  rw [tokens, if_neg (by simp [h]), advance_tokens]

theorem start_tokens (scanner : Scanner) : (start scanner).tokens = scanner.tokens :=
  advance_tokens ⟨scanner, scanner.next.1, .standard⟩

theorem current_of_tokens {parser : Parser} {token : Token} {rest : List Token}
    (h : parser.tokens = token :: rest) : parser.current = token := by
  cases hend : parser.current.isEnd with
  | true =>
      rw [tokens_of_isEnd hend] at h
      injection h
  | false =>
      rw [tokens_of_not_isEnd hend] at h
      injection h

theorem tokens_eq_cons (parser : Parser) :
    exists after, parser.tokens = parser.current :: after := by
  cases hend : parser.current.isEnd with
  | true => exact ⟨[], tokens_of_isEnd hend⟩
  | false => exact ⟨_, tokens_of_not_isEnd hend⟩

theorem not_isEnd_of_kind {parser : Parser}
    (h : parser.current.kind ≠ .endOfInput) : parser.current.isEnd = false := by
  cases hend : parser.current.isEnd with
  | true => exact absurd ((Token.isEnd_iff _).mp hend) h
  | false => rfl

theorem isEnd_of_kind {parser : Parser} (h : parser.current.kind = .endOfInput) :
    parser.current.isEnd = true :=
  (Token.isEnd_iff _).mpr h

theorem advance_tokens_of_cons {parser : Parser} {token : Token}
    {rest : List Token} (h : parser.tokens = token :: rest)
    (hkind : parser.current.kind ≠ .endOfInput) : parser.advance.tokens = rest := by
  rw [tokens_of_not_isEnd (not_isEnd_of_kind hkind)] at h
  injection h

/-!
# Tokens left
-/

def left (parser : Parser) : Nat :=
  (if parser.current.isEnd then 0 else 1) + parser.scanner.left

theorem advance_left (parser : Parser) :
    parser.advance.left = parser.scanner.left := by
  show (if parser.scanner.next.1.isEnd then 0 else 1) +
    parser.scanner.next.2.left = parser.scanner.left
  cases hend : parser.scanner.next.1.isEnd with
  | true =>
      have hnext := Scanner.next_isEnd_of_isEnd hend
      rw [Scanner.left_of_isEnd hend, Scanner.left_of_isEnd hnext]
      rfl
  | false =>
      rw [Scanner.left_of_not_isEnd hend]
      exact Nat.add_comm _ _

theorem left_of_isEnd {parser : Parser} (h : parser.current.isEnd = true) :
    parser.left = parser.advance.left := by
  rw [advance_left, left, if_pos h, Nat.zero_add]

theorem left_of_not_isEnd {parser : Parser} (h : parser.current.isEnd = false) :
    parser.left = parser.advance.left + 1 := by
  rw [advance_left, left, if_neg (by simp [h]), Nat.add_comm]

theorem advance_left_le (parser : Parser) : parser.advance.left ≤ parser.left := by
  cases hend : parser.current.isEnd with
  | true => exact Nat.le_of_eq (left_of_isEnd hend).symm
  | false =>
      rw [left_of_not_isEnd hend]
      exact Nat.le_succ _

theorem advance_left_lt {parser : Parser} (h : parser.current.kind ≠ .endOfInput) :
    parser.advance.left < parser.left := by
  rw [left_of_not_isEnd (not_isEnd_of_kind h)]
  exact Nat.lt_succ_self _

theorem left_le_pending (parser : Parser) : parser.left ≤ parser.pending := by
  have hscanner := Scanner.left_le_pending parser.scanner
  unfold left pending
  split
  · omega
  · omega

/-- The depth of a parser is enough for the tokens that are left. -/
theorem left_le_depth (parser : Parser) : 4 * parser.left + 8 ≤ parser.depth := by
  have hpending := left_le_pending parser
  unfold depth
  omega

/-!
# Reading kinds

Only the kinds of tokens decide what a parser does.  A parser reads a list of
kinds if its next tokens have these kinds and it has used just these tokens.
-/

inductive Reads : Parser -> List Token.Kind -> Parser -> Prop where
  | nothing (parser : Parser) : Reads parser [] parser
  | token {parser rest : Parser} {kinds : List Token.Kind} :
      parser.current.kind ≠ .endOfInput ->
      Reads parser.advance kinds rest ->
      Reads parser (parser.current.kind :: kinds) rest

theorem reads_one {parser : Parser} {kind : Token.Kind}
    (h : parser.current.kind = kind) (hkind : kind ≠ .endOfInput) :
    Reads parser [kind] parser.advance := by
  rw [← h] at hkind ⊢
  exact Reads.token hkind (Reads.nothing _)

theorem reads_cons {parser rest : Parser} {kind : Token.Kind}
    {kinds : List Token.Kind} (h : parser.current.kind = kind)
    (hkind : kind ≠ .endOfInput) (hrest : Reads parser.advance kinds rest) :
    Reads parser (kind :: kinds) rest := by
  rw [← h] at hkind ⊢
  exact Reads.token hkind hrest

theorem reads_append {parser middle rest : Parser}
    {kinds others : List Token.Kind} (h : Reads parser kinds middle)
    (hrest : Reads middle others rest) : Reads parser (kinds ++ others) rest := by
  induction h with
  | nothing _ => exact hrest
  | token hkind _ ih => exact Reads.token hkind (ih hrest)

theorem reads_cons_inv {parser rest : Parser} {kind : Token.Kind}
    {kinds : List Token.Kind} (h : Reads parser (kind :: kinds) rest) :
    parser.current.kind = kind ∧ Reads parser.advance kinds rest := by
  cases h with
  | token _ hrest => exact ⟨rfl, hrest⟩

theorem reads_append_inv {parser rest : Parser}
    {kinds others : List Token.Kind} (h : Reads parser (kinds ++ others) rest) :
    exists middle, Reads parser kinds middle ∧ Reads middle others rest := by
  induction kinds generalizing parser with
  | nil => exact ⟨parser, Reads.nothing parser, h⟩
  | cons kind kinds ih =>
      cases h with
      | token hkind hrest =>
          rcases ih hrest with ⟨middle, hfirst, hsecond⟩
          exact ⟨middle, Reads.token hkind hfirst, hsecond⟩

theorem reads_nil_inv {parser rest : Parser} (h : Reads parser [] rest) :
    parser = rest := by
  cases h
  rfl

theorem reads_ne_endOfInput {parser rest : Parser} {kinds : List Token.Kind}
    (h : Reads parser kinds rest) {kind : Token.Kind} (hmem : kind ∈ kinds) :
    kind ≠ .endOfInput := by
  induction h with
  | nothing _ => cases hmem
  | token hkind _ ih =>
      rcases List.mem_cons.mp hmem with hsame | hmem
      · rw [hsame]
        exact hkind
      · exact ih hmem

theorem reads_operators {parser rest : Parser} {kinds : List Token.Kind}
    (h : Reads parser kinds rest) : rest.operators = parser.operators := by
  induction h with
  | nothing _ => rfl
  | token _ _ ih => exact ih

theorem reads_left {parser rest : Parser} {kinds : List Token.Kind}
    (h : Reads parser kinds rest) : parser.left = kinds.length + rest.left := by
  induction h with
  | nothing _ => exact (Nat.zero_add _).symm
  | @token parser rest kinds hkind _ ih =>
      rw [left_of_not_isEnd (not_isEnd_of_kind hkind), ih, List.length_cons]
      omega

theorem reads_tokens {parser rest : Parser} {kinds : List Token.Kind}
    (h : Reads parser kinds rest) :
    exists used, used.map Token.kind = kinds ∧
      parser.tokens = used ++ rest.tokens := by
  induction h with
  | nothing parser => exact ⟨[], rfl, rfl⟩
  | @token parser rest kinds hkind _ ih =>
      rcases ih with ⟨used, hused, htokens⟩
      exists parser.current :: used
      constructor
      · rw [List.map_cons, hused]
      · rw [tokens_of_not_isEnd (not_isEnd_of_kind hkind), htokens, List.cons_append]

theorem reads_of_tokens {parser : Parser} {used after : List Token} {next : Token}
    (h : parser.tokens = used ++ next :: after) :
    exists rest, Reads parser (used.map Token.kind) rest ∧
      rest.tokens = next :: after := by
  induction used generalizing parser with
  | nil => exact ⟨parser, Reads.nothing parser, h⟩
  | cons token used ih =>
      have hcurrent := current_of_tokens h
      cases hend : parser.current.isEnd with
      | true =>
          rw [tokens_of_isEnd hend] at h
          simp at h
      | false =>
          rw [tokens_of_not_isEnd hend, List.cons_append] at h
          injection h with _ htail
          rcases ih htail with ⟨rest, hreads, htokens⟩
          have hkind : parser.current.kind ≠ .endOfInput := by
            simpa [Token.isEnd] using hend
          exists rest
          constructor
          · rw [List.map_cons, ← hcurrent]
            exact Reads.token hkind hreads
          · exact htokens

theorem reads_of_kinds {parser : Parser} {kinds after : List Token.Kind}
    {next : Token.Kind}
    (h : parser.tokens.map Token.kind = kinds ++ next :: after) :
    exists rest, Reads parser kinds rest ∧
      rest.tokens.map Token.kind = next :: after := by
  rcases List.map_eq_append_iff.mp h with ⟨used, others, htokens, hused, hothers⟩
  rcases List.map_eq_cons_iff.mp hothers with ⟨token, further, hcons, hnext, hafter⟩
  rw [hcons] at htokens
  rcases reads_of_tokens htokens with ⟨rest, hreads, hrest⟩
  rw [hused] at hreads
  refine ⟨rest, hreads, ?_⟩
  rw [hrest, List.map_cons, hnext, hafter]

theorem current_of_kinds {parser : Parser} {kind : Token.Kind}
    {kinds : List Token.Kind} (h : parser.tokens.map Token.kind = kind :: kinds) :
    parser.current.kind = kind := by
  rcases tokens_eq_cons parser with ⟨after, hafter⟩
  rw [hafter, List.map_cons] at h
  injection h

theorem advance_kinds_of_cons {parser : Parser} {kind : Token.Kind}
    {kinds : List Token.Kind} (h : parser.tokens.map Token.kind = kind :: kinds)
    (hkind : kind ≠ .endOfInput) : parser.advance.tokens.map Token.kind = kinds := by
  rw [← current_of_kinds h] at hkind
  rw [tokens_of_not_isEnd (not_isEnd_of_kind hkind), List.map_cons] at h
  injection h

end Parser
end Kaleidoscope

import Kaleidoscope.Proofs.Scanner.Tokenization
import Kaleidoscope.Proofs.Session.Interruption
import Kaleidoscope.Proofs.Session.Resynchronisation

/-!
# The errors of a session

Each error of a session describes a token of its source, and the session drops
that token.  So the errors describe tokens in their order, none of them twice,
and the end of the input at most once.
-/

namespace Kaleidoscope

def syntaxErrors (outcomes : List Outcome) : List SyntaxError :=
  outcomes.filterMap fun
    | .ok _ => none
    | .error error => some error

def Token.place (token : Token) : String × Position :=
  (token.lexeme, token.span.start)

def SyntaxError.place (error : SyntaxError) : String × Position :=
  (error.lexeme, error.position)

theorem mem_syntaxErrors {outcomes : List Outcome} {error : SyntaxError} :
    error ∈ syntaxErrors outcomes <-> .error error ∈ outcomes := by
  rw [syntaxErrors, List.mem_filterMap]
  constructor
  · rintro ⟨outcome, hmem, hsome⟩
    cases outcome with
    | ok unit => cases hsome
    | error other =>
        injection hsome with hsame
        rw [← hsame]
        exact hmem
  · intro hmem
    exact ⟨.error error, hmem, rfl⟩

namespace Session

/-!
# Errors and tokens
-/

theorem reaches_tokens {parser rest : Parser} (h : parser.Reaches rest) :
    rest.tokens <:+ parser.tokens := by
  rcases h with ⟨kinds, hreads⟩
  rcases Parser.reads_tokens hreads with ⟨used, _, htokens⟩
  rw [htokens]
  exact List.suffix_append used rest.tokens

theorem reaches_places {parser rest : Parser} (h : parser.Reaches rest) :
    (rest.tokens.map Token.place).Sublist (parser.tokens.map Token.place) :=
  (reaches_tokens h).sublist.map Token.place

theorem errors_sublist {parser : Parser} (hlasting : parser.Lasting) :
    ((syntaxErrors (outcomes parser)).map SyntaxError.place).Sublist
      (parser.tokens.map Token.place) := by
  revert hlasting
  refine outcomes_induction
    (motive := fun parser found => parser.Lasting ->
      ((syntaxErrors found).map SyntaxError.place).Sublist (parser.tokens.map Token.place))
    ?_ ?_ ?_ ?_ parser
  · intro parser _ _
    exact List.nil_sublist _
  · intro parser hsemicolon ih _
    have hreaches := Parser.advance_reaches hsemicolon nofun
    exact (ih (Parser.advance_lasting parser)).trans (reaches_places hreaches)
  · intro parser unit rest _ _ hparsed ih hlasting
    have hreaches := Parser.reaches_of_topLevel hparsed
    exact (ih (Parser.reaches_lasting hreaches hlasting)).trans (reaches_places hreaches)
  · intro parser error rest _ _ hfailed ih hlasting
    have hreaches := Parser.reaches_of_topLevel hfailed
    have hrest := Parser.reaches_lasting hreaches hlasting
    refine List.Sublist.trans ?_ (reaches_places hreaches)
    rcases Parser.topLevel_error hfailed with ⟨kind, herror⟩
    have hplace : error.place = rest.current.place := by
      rw [herror]
      rfl
    show ((error :: syntaxErrors (outcomes rest.advance)).map SyntaxError.place).Sublist _
    rw [List.map_cons, hplace]
    by_cases hend : rest.current.kind = .endOfInput
    · -- The end is not dropped, but nothing comes after it.
      rw [outcomes_of_end (Parser.advance_current_of_end hrest hend),
        Parser.tokens_of_isEnd (Parser.isEnd_of_kind hend)]
      exact List.Sublist.refl _
    · rw [Parser.tokens_of_not_isEnd (Parser.not_isEnd_of_kind hend), List.map_cons]
      exact (ih (Parser.advance_lasting rest)).cons_cons _

theorem exists_token_of_error {scanner : Scanner} {error : SyntaxError}
    (h : .error error ∈ outcomes (.start scanner)) :
    exists token, token ∈ scanner.tokens ∧ error.lexeme = token.lexeme ∧
      error.position = token.span.start := by
  have hsublist := errors_sublist (Parser.start_lasting scanner)
  rw [Parser.start_tokens] at hsublist
  have hplace := hsublist.subset (List.mem_map_of_mem (mem_syntaxErrors.mpr h))
  rcases List.mem_map.mp hplace with ⟨token, hmem, hsame⟩
  injection hsame with hlexeme hposition
  exact ⟨token, hmem, hlexeme.symm, hposition.symm⟩

/-!
# Offsets of tokens
-/

theorem start_ascending {source : Source} (file : String)
    (h : (Source.charsOf source.answers).length < Nat.pow 2 32) :
    (Scanner.start source file).tokens.Pairwise fun token later =>
      token.start < later.start := by
  have htotal := Nat.le_sub_one_of_lt h
  rcases Scanner.start_tokenizes file htotal with ⟨body, hbody, htokenizes⟩
  rw [hbody, List.pairwise_append]
  refine ⟨?_, List.pairwise_singleton _ _, ?_⟩
  · apply htokenizes.ordered.imp_of_mem
    intro token later htoken _ hordered
    exact Nat.lt_of_lt_of_le (htokenizes.fits htoken).nonempty hordered
  · intro token htoken last hlast
    have hfits := htokenizes.fits htoken
    rw [List.mem_singleton.mp hlast, Token.atEnd_start htotal]
    exact Nat.lt_of_lt_of_le hfits.nonempty hfits.inside

/-!
# The order of errors
-/

/-- Errors come in the order of their offsets, and one at the end comes last. -/
structure Ordered (found : List Outcome) : Prop where
  ascending :
    (syntaxErrors found).Pairwise fun error later =>
      error.position.offset < later.position.offset
  last {error : SyntaxError} : .error error ∈ found.dropLast -> error.lexeme ≠ ""

theorem ordered_of_front {found others : List Outcome} (h : Ordered others)
    (hfront : found <+: others) : Ordered found where
  ascending := h.ascending.sublist (hfront.filterMap _).sublist
  last hmem := by
    rcases hfront with ⟨rest, happend⟩
    apply h.last
    rw [← happend, List.dropLast_append]
    split
    · exact hmem
    · exact List.mem_append_left _ (List.IsPrefix.mem hmem (List.dropLast_prefix found))

theorem outcomes_ordered {source : Source} (file : String)
    (h : (Source.charsOf source.answers).length < Nat.pow 2 32) :
    Ordered (outcomes (.start (.start source file))) where
  ascending := by
    have hsublist := errors_sublist (Parser.start_lasting (.start source file))
    have htokens := start_ascending file h
    rw [Parser.start_tokens] at hsublist
    have hplaces : ((Scanner.start source file).tokens.map Token.place).Pairwise
        fun place later => place.2.offset < later.2.offset :=
      List.pairwise_map.mpr htokens
    have herrors := hplaces.sublist hsublist
    rw [List.pairwise_map] at herrors
    exact herrors
  last hmem := lexeme_ne_empty_of_mem_dropLast (start_spelled _) hmem

theorem deliveries_front (limits : Limits) (settings : Settings) (scanner : Scanner) :
    (run limits settings scanner).deliveries.map Delivery.outcome <+:
      outcomes (.start scanner) := by
  rw [← events_outcomes settings, ← completed_outcomes 0]
  exact (leaves_partial (run_leaves limits settings scanner)).right.map Delivery.outcome

/--
An error describes the token that the parser has stopped at, in every state that a
parser can be in.  So the errors of a session, whether or not something stops it,
come in the order of their offsets, and only the last outcome can be an error at
the end of the input.
-/
theorem errors_describe_lookahead :
    (forall (scanner : Scanner) (operators : Operators) (requests : List Parser.Request)
        (request : Parser.Request) (error : SyntaxError) (rest : Parser),
      (Parser.after { Parser.start scanner with operators } requests).perform request =
        (some error, rest) -> error.Describes rest) ∧
      forall (limits : Limits) (settings : Settings) (source : Source) (file : String),
        (Source.charsOf source.answers).length < Nat.pow 2 32 ->
        Ordered
          ((run limits settings (.start source file)).deliveries.map Delivery.outcome) := by
  constructor
  · intro scanner operators requests request error rest h
    exact Parser.describes_of_perform h
  · intro limits settings source file h
    exact ordered_of_front (outcomes_ordered file h) (deliveries_front limits settings _)

def beforeOperand : Parser :=
  Parser.after { Parser.start (.start (.ofString "! )") "shell") with operators := .empty }
    [.install '!' 30]

theorem errors_describe_operand :
    (exists rest,
      beforeOperand.perform (.operations (-2) (.var "x")) =
          (some ⟨.unknownToken, ")", ⟨2, "shell"⟩⟩, rest) ∧
        SyntaxError.Describes ⟨.unknownToken, ")", ⟨2, "shell"⟩⟩ rest) ∧
      Ordered ((run ⟨some 90, none, none⟩ ⟨false, .plain⟩
        (.start (.ofString ") def") "shell")).deliveries.map Delivery.outcome) := by
  have hfailed : (beforeOperand.perform (.operations (-2) (.var "x"))).1 =
      some ⟨.unknownToken, ")", ⟨2, "shell"⟩⟩ := by
    decide +kernel
  exact ⟨⟨_, Prod.ext hfailed rfl,
      errors_describe_lookahead.left _ _ _ _ _ _ (Prod.ext hfailed rfl)⟩,
    errors_describe_lookahead.right _ _ _ _ (by decide)⟩

end Session
end Kaleidoscope

import Kaleidoscope.Proofs.Grammar.Completeness

/-!
# The parser accepts its grammar

Reading a unit succeeds on just those prefixes of the remaining tokens that the
grammar derives and that may end before the token after them.  There is at most
one such prefix.
-/

namespace Kaleidoscope
namespace Parser

structure Consumes (parser : Parser) (used : List Token) (rest : Parser) : Prop where
  reads : Reads parser (used.map Token.kind) rest
  tokens : parser.tokens = used ++ rest.tokens

/-- The grammar derives the unit from a prefix that may end where it does. -/
def Admits (parser : Parser) (used : List Token) (unit : TopLevel) : Prop :=
  exists next after, parser.tokens = used ++ next :: after ∧
    Derives parser.operators (used.map Token.kind) (.unit unit) ∧
    Follows parser.operators unit (used.map Token.kind) next.kind

structure AcceptsGrammar (parser : Parser) : Prop where
  accepts_iff (used : List Token) (unit : TopLevel) :
    (exists rest, parser.topLevel = (.ok unit, rest) ∧ parser.Consumes used rest) <->
      parser.Admits used unit
  lookahead {unit : TopLevel} {rest : Parser} :
    parser.topLevel = (.ok unit, rest) ->
      exists used after, parser.Consumes used rest ∧ parser.Admits used unit ∧
        parser.tokens = used ++ rest.current :: after
  unique {used used' : List Token} {unit unit' : TopLevel} :
    parser.Admits used unit -> parser.Admits used' unit' ->
      used = used' ∧ unit = unit'

theorem consumes_of_reads {parser rest : Parser} {kinds : List Token.Kind}
    (h : Reads parser kinds rest) :
    exists used, used.map Token.kind = kinds ∧ parser.Consumes used rest := by
  rcases reads_tokens h with ⟨used, hused, htokens⟩
  exists used, hused
  constructor
  · rw [hused]
    exact h
  · exact htokens

theorem admits_of_topLevel {parser rest : Parser} {unit : TopLevel}
    (h : parser.topLevel = (.ok unit, rest)) :
    exists used, parser.Consumes used rest ∧ parser.Admits used unit := by
  rcases topLevel_sound h with ⟨kinds, hreads, hderives, hfollows⟩
  rcases consumes_of_reads hreads with ⟨used, hused, hconsumes⟩
  rcases tokens_eq_cons rest with ⟨after, hafter⟩
  exists used, hconsumes, rest.current, after
  rw [hused, ← hafter]
  exact ⟨hconsumes.tokens, hderives, hfollows⟩

theorem consumes_unique {parser rest : Parser} {used used' : List Token}
    (h : parser.Consumes used rest) (h' : parser.Consumes used' rest) :
    used = used' := by
  have hsame := h.tokens
  rw [h'.tokens] at hsame
  exact (List.append_cancel_right hsame).symm

theorem topLevel_of_admits {parser : Parser} {used : List Token} {unit : TopLevel}
    (hspares : parser.operators.SparesDelimiters) (h : parser.Admits used unit) :
    exists rest, parser.topLevel = (.ok unit, rest) ∧ parser.Consumes used rest := by
  rcases h with ⟨next, after, htokens, hderives, hfollows⟩
  rcases reads_of_tokens htokens with ⟨rest, hreads, hrest⟩
  rw [← current_of_tokens hrest] at hfollows
  exists rest, topLevel_complete hspares hderives hreads hfollows
  constructor
  · exact hreads
  · rw [htokens, hrest]

theorem topLevel_acceptsGrammar (parser : Parser)
    (hspares : parser.operators.SparesDelimiters) : parser.AcceptsGrammar := by
  constructor
  · intro used unit
    constructor
    · rintro ⟨rest, hparsed, hconsumes⟩
      rcases admits_of_topLevel hparsed with ⟨used', hconsumes', hadmits⟩
      rw [consumes_unique hconsumes hconsumes']
      exact hadmits
    · intro hadmits
      exact topLevel_of_admits hspares hadmits
  · intro unit rest hparsed
    rcases admits_of_topLevel hparsed with ⟨used, hconsumes, hadmits⟩
    rcases tokens_eq_cons rest with ⟨after, hafter⟩
    have htokens := hconsumes.tokens
    rw [hafter] at htokens
    exact ⟨used, after, hconsumes, hadmits, htokens⟩
  · intro used used' unit unit' hadmits hadmits'
    rcases topLevel_of_admits hspares hadmits with ⟨rest, hparsed, hconsumes⟩
    rcases topLevel_of_admits hspares hadmits' with ⟨rest', hparsed', hconsumes'⟩
    rw [hparsed] at hparsed'
    injection hparsed' with hunit hrest
    injection hunit with hunit
    rw [← hrest] at hconsumes'
    exact ⟨consumes_unique hconsumes hconsumes', hunit⟩

theorem call_acceptsGrammar :
    (start (.start (.ofString "f(x, 1) y") Scanner.unnamed)).operators.SparesDelimiters ∧
      (start (.start (.ofString "f(x, 1) y") Scanner.unnamed)).AcceptsGrammar :=
  ⟨Operators.standard_sparesDelimiters,
    topLevel_acceptsGrammar _ Operators.standard_sparesDelimiters⟩

def wideOperator : Parser :=
  (start (.start (.ofChars ['a', ' ', 'é', ' ', 'b']) Scanner.unnamed)).install 'é' 10

/--
A character that is not ASCII is no operator, whatever precedence is installed
for it: an expression ends before it.
-/
theorem topLevel_ends_before_wide_character :
    wideOperator.operators.SparesDelimiters ∧
      wideOperator.operators.entries.lookup 'é' = some 10 ∧
      exists rest,
        wideOperator.topLevel = (.ok (.expression ⟨.anonymous, .var "a"⟩), rest) ∧
          rest.current.kind = .character 'é' :=
  ⟨Operators.install_sparesDelimiters Operators.standard_sparesDelimiters rfl 10,
    rfl, _, rfl, rfl⟩

end Parser
end Kaleidoscope

import Kaleidoscope.Proofs.Grammar.Soundness

/-!
# Completeness of the parser

Whatever the grammar derives, the parser reads, provided that the phrase may end
where its kinds end.  The table must leave the parentheses and the comma alone:
an operator that looks like one of them is taken for it.
-/

namespace Kaleidoscope
namespace Operators

/-- Parentheses and commas are no operators. -/
def SparesDelimiters (operators : Operators) : Prop :=
  forall c, Parser.isDelimiter c = true -> ¬ operators.IsOperator (.character c)

theorem install_sparesDelimiters {operators : Operators}
    (h : operators.SparesDelimiters) {op : Char}
    (hop : Parser.isDelimiter op = false) (precedence : Int32) :
    (operators.install op precedence).SparesDelimiters := by
  rintro c hc ⟨d, q, hkind, hd⟩
  apply h c hc
  exists d, q, hkind
  have hne : d ≠ op := by
    intro hsame
    injection hkind with hcd
    rw [hcd, hsame, hop] at hc
    cases hc
  rw [precedence?, install, List.lookup_cons, beq_false_of_ne hne] at hd
  exact hd

theorem standard_sparesDelimiters : standard.SparesDelimiters := by
  rintro c hc ⟨op, precedence, hkind, hop⟩
  injection hkind with hsame
  simp only [Parser.isDelimiter, Bool.or_eq_true, beq_iff_eq] at hc
  rcases hc with (hc | hc) | hc
  · rw [← hsame, hc] at hop
    cases hop
  · rw [← hsame, hc] at hop
    cases hop
  · rw [← hsame, hc] at hop
    cases hop

end Operators

namespace Parser

def Completes (kinds : List Token.Kind) (parser rest : Parser) : Phrase -> Prop
  | .primary value => NotCalled kinds rest -> parser.primary = (.ok value, rest)
  | .operations values =>
      rest.precedence < 0 -> NotCalled kinds rest -> Run 0 parser values rest
  | .expression value =>
      rest.precedence < 0 -> NotCalled kinds rest ->
        parser.expression = (.ok value, rest)
  | .arguments values =>
      rest.current.kind = .character ')' -> parser.arguments = (.ok values, rest)
  | .parameters names =>
      rest.current.kind = .character ')' -> parser.parameters = (.ok names, rest)
  | .prototype value => parser.prototype = (.ok value, rest)
  | .unit value =>
      Follows parser.operators value kinds rest.current.kind ->
        parser.topLevel = (.ok value, rest)

/-- A phrase is read wherever its kinds are next. -/
def Complete (operators : Operators) (kinds : List Token.Kind) (phrase : Phrase) :
    Prop :=
  forall parser rest : Parser, parser.operators = operators ->
    Reads parser kinds rest -> Completes kinds parser rest phrase

/-!
# Where phrases end
-/

theorem precedence_neg_iff (parser : Parser) :
    parser.precedence < 0 <-> ¬ parser.operators.IsOperator parser.current.kind := by
  rw [Operators.isOperator_iff]
  exact Int32.not_le.symm

theorem precedence_neg_of_delimiter {parser : Parser} {c : Char}
    (hspares : parser.operators.SparesDelimiters) (hc : isDelimiter c = true)
    (h : parser.current.kind = .character c) : parser.precedence < 0 := by
  rw [precedence_neg_iff, h]
  exact hspares c hc

theorem notCalled_of_kind {parser : Parser} {c : Char}
    (h : parser.current.kind = .character c) (hc : c ≠ '(')
    (kinds : List Token.Kind) : NotCalled kinds parser := by
  intro _ hopen
  rw [h] at hopen
  exact hc (Token.Kind.character.inj hopen)

theorem notCalled_of_append (kinds : List Token.Kind)
    {others : List Token.Kind} {rest : Parser} (h : NotCalled (kinds ++ others) rest) :
    NotCalled others rest := by
  cases others with
  | nil =>
      rintro ⟨name, hlast⟩
      cases hlast
  | cons kind others =>
      intro hlast
      exact h ((endsInIdentifier_append (List.cons_ne_nil kind others)).mpr hlast)

/-- Operations do not begin with a parenthesis, so they call no name before them. -/
theorem notCalled_before {operators : Operators}
    (hspares : operators.SparesDelimiters) {kinds others : List Token.Kind}
    {operations : List Operation} {middle rest : Parser}
    (hothers : Derives operators others (.operations operations))
    (hreads : Reads middle others rest) (h : NotCalled (kinds ++ others) rest) :
    NotCalled kinds middle := by
  rcases derives_begins hothers with hnil | ⟨first, tail, hcons, hfirst⟩
  · rw [hnil] at hreads h
    rw [reads_nil_inv hreads]
    rw [List.append_nil] at h
    exact h
  · rw [hcons] at hreads
    have hkind := (reads_cons_inv hreads).left
    intro _ hopen
    rw [← hkind, hopen] at hfirst
    exact hspares '(' rfl hfirst

/-!
# Operands
-/

theorem expected_of_kind {parser : Parser} {c : Char}
    (h : parser.current.kind = .character c) (kind : SyntaxError.Kind) (value : α) :
    parser.expected c kind value = (.ok value, parser.advance) := by
  rw [expected, if_pos (atCharacter_of_kind h)]

theorem atCharacter_of_ne {parser : Parser} {c : Char}
    (h : parser.current.kind ≠ .character c) : parser.atCharacter c ≠ true :=
  fun hat => h (kind_of_atCharacter hat)

theorem primary_of_identifier {parser : Parser} {name : String}
    (h : parser.current.kind = .identifier name) :
    parser.primary = parser.reference name := by
  rw [primary_eq, h]

theorem var_completes {parser rest : Parser} {name : String}
    (hreads : Reads parser [.identifier name] rest)
    (hstop : NotCalled [.identifier name] rest) :
    parser.primary = (.ok (.var name), rest) := by
  rcases reads_cons_inv hreads with ⟨hname, hrest⟩
  have hsame := reads_nil_inv hrest
  have hopen : parser.advance.current.kind ≠ .character '(' := by
    rw [hsame]
    exact hstop ⟨name, rfl⟩
  rw [primary_of_identifier hname, reference_eq, if_neg (atCharacter_of_ne hopen),
    hsame]

theorem emptyCall_completes {parser rest : Parser} {name : String}
    (hreads : Reads parser
      [.identifier name, .character '(', .character ')'] rest) :
    parser.primary = (.ok (.call name []), rest) := by
  rcases reads_cons_inv hreads with ⟨hname, hrest⟩
  rcases reads_cons_inv hrest with ⟨hopen, hrest⟩
  rcases reads_cons_inv hrest with ⟨hclose, hrest⟩
  rw [primary_of_identifier hname, reference_eq, if_pos (atCharacter_of_kind hopen),
    if_pos (atCharacter_of_kind hclose), reads_nil_inv hrest]

theorem call_completes {operators : Operators} {parser rest : Parser}
    {name : String} {inside : List Token.Kind} {values : List Expr}
    (hinside : Derives operators inside (.arguments values))
    (hsame : parser.operators = operators)
    (ih : Complete operators inside (.arguments values))
    (hreads : Reads parser
      (.identifier name :: .character '(' :: (inside ++ [.character ')'])) rest) :
    parser.primary = (.ok (.call name values), rest) := by
  rcases reads_cons_inv hreads with ⟨hname, hrest⟩
  rcases reads_cons_inv hrest with ⟨hopen, hrest⟩
  rcases reads_append_inv hrest with ⟨last, hvalues, hrest⟩
  rcases reads_cons_inv hrest with ⟨hclose, hrest⟩
  have hfirst : parser.advance.advance.current.kind ≠ .character ')' := by
    rcases derives_begins hinside with ⟨first, tail, hcons, hbegins⟩
    rw [hcons] at hvalues
    rw [(reads_cons_inv hvalues).left]
    intro hclose
    rw [hclose] at hbegins
    cases hbegins
  have harguments := ih parser.advance.advance last hsame hvalues hclose
  rw [primary_of_identifier hname, reference_eq, if_pos (atCharacter_of_kind hopen),
    if_neg (atCharacter_of_ne hfirst), harguments, Result.followedBy_ok,
    reads_nil_inv hrest]

theorem grouping_completes {operators : Operators}
    (hspares : operators.SparesDelimiters) {parser rest : Parser}
    {inside : List Token.Kind} {value : Expr} (hsame : parser.operators = operators)
    (ih : Complete operators inside (.expression value))
    (hreads : Reads parser
      (.character '(' :: (inside ++ [.character ')'])) rest) :
    parser.primary = (.ok value, rest) := by
  rcases reads_cons_inv hreads with ⟨hopen, hrest⟩
  rcases reads_append_inv hrest with ⟨last, hvalue, hrest⟩
  rcases reads_cons_inv hrest with ⟨hclose, hrest⟩
  have hoperators : last.operators = operators := by
    rw [reads_operators hvalue]
    exact hsame
  have hstop : last.precedence < 0 := by
    rw [← hoperators] at hspares
    exact precedence_neg_of_delimiter hspares rfl hclose
  have hexpression := ih parser.advance last hsame hvalue hstop
    (notCalled_of_kind hclose (by decide) inside)
  rw [primary_eq, hopen]
  show parser.grouping = _
  rw [grouping_eq, hexpression, Result.followedBy_ok, expected_of_kind hclose,
    reads_nil_inv hrest]

/-!
# Operations and arguments
-/

theorem operation_completes {operators : Operators}
    (hspares : operators.SparesDelimiters) {parser rest : Parser} {op : Char}
    {operand others : List Token.Kind} {right : Expr} {values : List Operation}
    (hop : operators.IsOperator (.character op))
    (hothers : Derives operators others (.operations values))
    (hsame : parser.operators = operators)
    (ihoperand : Complete operators operand (.primary right))
    (ihothers : Complete operators others (.operations values))
    (hreads : Reads parser (.character op :: (operand ++ others)) rest)
    (hstop : rest.precedence < 0)
    (hnotCalled : NotCalled (.character op :: (operand ++ others)) rest) :
    Run 0 parser ((op, right) :: values) rest := by
  rcases reads_cons_inv hreads with ⟨hkind, hrest⟩
  rcases reads_append_inv hrest with ⟨middle, hoperand, hrest⟩
  have hoperators : middle.operators = operators := by
    rw [reads_operators hoperand]
    exact hsame
  have hcalled : NotCalled (operand ++ others) rest :=
    notCalled_of_append [.character op] hnotCalled
  have hreached : ¬ parser.precedence < 0 := by
    rw [precedence_neg_iff, hkind, hsame]
    exact fun hnot => hnot hop
  apply Run.step hkind hreached
  · exact ihoperand parser.advance middle hsame hoperand
      (notCalled_before hspares hothers hrest hcalled)
  · exact ihothers middle rest hoperators hrest hstop (notCalled_of_append operand hcalled)

theorem expression_completes {operators : Operators}
    (hspares : operators.SparesDelimiters) {parser rest : Parser}
    {operand others : List Token.Kind} {left : Expr} {values : List Operation}
    (hothers : Derives operators others (.operations values))
    (hsame : parser.operators = operators)
    (ihoperand : Complete operators operand (.primary left))
    (ihothers : Complete operators others (.operations values))
    (hreads : Reads parser (operand ++ others) rest)
    (hstop : rest.precedence < 0) (hnotCalled : NotCalled (operand ++ others) rest) :
    parser.expression = (.ok (operators.tree left values), rest) := by
  rcases reads_append_inv hreads with ⟨middle, hoperand, hrest⟩
  have hoperators : middle.operators = operators := by
    rw [reads_operators hoperand]
    exact hsame
  have hprimary := ihoperand parser middle hsame hoperand
    (notCalled_before hspares hothers hrest hnotCalled)
  have hrun := ihothers middle rest hoperators hrest hstop
    (notCalled_of_append operand hnotCalled)
  rw [expression_eq, hprimary, Result.followedBy_ok, operations_of_run hrun,
    hoperators]

theorem lastArgument_completes {operators : Operators}
    (hspares : operators.SparesDelimiters) {parser rest : Parser}
    {kinds : List Token.Kind} {value : Expr} (hsame : parser.operators = operators)
    (ih : Complete operators kinds (.expression value))
    (hreads : Reads parser kinds rest)
    (hclose : rest.current.kind = .character ')') :
    parser.arguments = (.ok [value], rest) := by
  rw [← hsame, ← reads_operators hreads] at hspares
  have hexpression := ih parser rest hsame hreads
    (precedence_neg_of_delimiter hspares rfl hclose)
    (notCalled_of_kind hclose (by decide) kinds)
  rw [arguments_eq, hexpression, Result.followedBy_ok,
    if_pos (atCharacter_of_kind hclose)]

theorem nextArgument_completes {operators : Operators}
    (hspares : operators.SparesDelimiters) {parser rest : Parser}
    {kinds others : List Token.Kind} {value : Expr} {values : List Expr}
    (hsame : parser.operators = operators)
    (ihfirst : Complete operators kinds (.expression value))
    (ihothers : Complete operators others (.arguments values))
    (hreads : Reads parser (kinds ++ .character ',' :: others) rest)
    (hclose : rest.current.kind = .character ')') :
    parser.arguments = (.ok (value :: values), rest) := by
  rcases reads_append_inv hreads with ⟨middle, hfirst, hrest⟩
  rcases reads_cons_inv hrest with ⟨hcomma, hrest⟩
  have hoperators : middle.operators = operators := by
    rw [reads_operators hfirst]
    exact hsame
  rw [← hoperators] at hspares
  have hexpression := ihfirst parser middle hsame hfirst
    (precedence_neg_of_delimiter hspares rfl hcomma)
    (notCalled_of_kind hcomma (by decide) kinds)
  have hopen : middle.current.kind ≠ .character ')' := by
    rw [hcomma]
    decide
  have harguments := ihothers middle.advance rest hoperators hrest hclose
  rw [arguments_eq, hexpression, Result.followedBy_ok,
    if_neg (atCharacter_of_ne hopen), if_pos (atCharacter_of_kind hcomma),
    harguments, Result.followedBy_ok]

/-!
# Top-level units
-/

theorem parameters_of_close {parser : Parser}
    (h : parser.current.kind = .character ')') :
    parser.parameters = (.ok [], parser) := by
  rw [parameters_eq, h]

theorem prototype_completes {operators : Operators} {parser rest : Parser}
    {name : String} {inside : List Token.Kind} {names : List String}
    (hsame : parser.operators = operators)
    (ih : Complete operators inside (.parameters names))
    (hreads : Reads parser
      (.identifier name :: .character '(' :: (inside ++ [.character ')'])) rest) :
    parser.prototype = (.ok ⟨name, names⟩, rest) := by
  rcases reads_cons_inv hreads with ⟨hname, hrest⟩
  rcases reads_cons_inv hrest with ⟨hopen, hrest⟩
  rcases reads_append_inv hrest with ⟨last, hnames, hrest⟩
  rcases reads_cons_inv hrest with ⟨hclose, hrest⟩
  have hparameters := ih parser.advance.advance last hsame hnames hclose
  rw [prototype_eq, hname]
  simp only [if_pos (atCharacter_of_kind hopen), hparameters, Result.followedBy_ok,
    expected_of_kind hclose, reads_nil_inv hrest]

theorem stops_inv {rest : Parser} {kinds : List Token.Kind}
    (h : Stops rest.operators kinds rest.current.kind) :
    rest.precedence < 0 ∧ NotCalled kinds rest := by
  constructor
  · rw [precedence_neg_iff]
    exact h.not_operator
  · exact h.not_called

theorem definition_completes {operators : Operators} {parser rest : Parser}
    {header body : List Token.Kind} {prototype : Prototype} {value : Expr}
    (hsame : parser.operators = operators)
    (ihheader : Complete operators header (.prototype prototype))
    (ihbody : Complete operators body (.expression value))
    (hreads : Reads parser (.define :: (header ++ body)) rest)
    (hstops : Stops parser.operators (.define :: (header ++ body))
      rest.current.kind) :
    parser.topLevel = (.ok (.definition ⟨prototype, value⟩), rest) := by
  rw [← reads_operators hreads] at hstops
  rcases stops_inv hstops with ⟨hstop, hnotCalled⟩
  rcases reads_cons_inv hreads with ⟨hdefine, hrest⟩
  rcases reads_append_inv hrest with ⟨middle, hheader, hrest⟩
  have hoperators : middle.operators = operators := by
    rw [reads_operators hheader]
    exact hsame
  have hprototype : parser.advance.prototype = (.ok prototype, middle) :=
    ihheader parser.advance middle hsame hheader
  have hbody := ihbody middle rest hoperators hrest hstop
    (notCalled_of_append (.define :: header) hnotCalled)
  rw [topLevel_eq, hdefine]
  simp only [definition_eq, hprototype, hbody, Result.followedBy_ok]

theorem external_completes {operators : Operators} {parser rest : Parser}
    {header : List Token.Kind} {prototype : Prototype}
    (hsame : parser.operators = operators)
    (ih : Complete operators header (.prototype prototype))
    (hreads : Reads parser (.external :: header) rest) :
    parser.topLevel = (.ok (.external prototype), rest) := by
  rcases reads_cons_inv hreads with ⟨hexternal, hrest⟩
  have hprototype : parser.advance.prototype = (.ok prototype, rest) :=
    ih parser.advance rest hsame hrest
  rw [topLevel_eq, hexternal]
  simp only [external_eq, hprototype, Result.followedBy_ok]

theorem bare_completes {operators : Operators} {parser rest : Parser}
    {kinds : List Token.Kind} {value : Expr}
    (hkinds : Derives operators kinds (.expression value))
    (hsame : parser.operators = operators)
    (ih : Complete operators kinds (.expression value))
    (hreads : Reads parser kinds rest)
    (hstops : Stops parser.operators kinds rest.current.kind) :
    parser.topLevel = (.ok (.expression ⟨.anonymous, value⟩), rest) := by
  rw [← reads_operators hreads] at hstops
  rcases stops_inv hstops with ⟨hstop, hnotCalled⟩
  have hexpression := ih parser rest hsame hreads hstop hnotCalled
  have hbare : parser.bareExpression = (.ok ⟨.anonymous, value⟩, rest) := by
    rw [bareExpression_eq, hexpression, Result.followedBy_ok]
  rcases derives_begins hkinds with ⟨first, tail, hcons, hfirst⟩
  rw [hcons] at hreads
  have hkind := (reads_cons_inv hreads).left
  rw [topLevel_eq, hkind]
  cases hfirst with
  | number _ | name _ | opening => simp only [hbare, Result.followedBy_ok]

/-!
# Every derivation
-/

theorem derives_complete {operators : Operators}
    (hspares : operators.SparesDelimiters) {kinds : List Token.Kind}
    {phrase : Phrase} (h : Derives operators kinds phrase) :
    Complete operators kinds phrase := by
  induction h with
  | number value =>
      intro parser rest hsame hreads _
      rcases reads_cons_inv hreads with ⟨hnumber, hrest⟩
      rw [primary_eq, hnumber, reads_nil_inv hrest]
  | var name =>
      intro parser rest hsame hreads
      exact var_completes hreads
  | emptyCall name =>
      intro parser rest hsame hreads _
      exact emptyCall_completes hreads
  | call name hinside ih =>
      intro parser rest hsame hreads _
      exact call_completes hinside hsame ih hreads
  | grouping _ ih =>
      intro parser rest hsame hreads _
      exact grouping_completes hspares hsame ih hreads
  | noOperation =>
      intro parser rest hsame hreads hstop _
      rw [reads_nil_inv hreads]
      exact Run.stop hstop
  | operation hop _ hothers ihoperand ihothers =>
      intro parser rest hsame hreads
      exact operation_completes hspares hop hothers hsame ihoperand ihothers hreads
  | expression _ hothers ihoperand ihothers =>
      intro parser rest hsame hreads
      exact expression_completes hspares hothers hsame ihoperand ihothers hreads
  | lastArgument _ ih =>
      intro parser rest hsame hreads
      exact lastArgument_completes hspares hsame ih hreads
  | nextArgument _ _ ihfirst ihothers =>
      intro parser rest hsame hreads
      exact nextArgument_completes hspares hsame ihfirst ihothers hreads
  | noParameter =>
      intro parser rest hsame hreads hclose
      rw [← reads_nil_inv hreads] at hclose ⊢
      exact parameters_of_close hclose
  | parameter name _ ih =>
      intro parser rest hsame hreads hclose
      rcases reads_cons_inv hreads with ⟨hname, hrest⟩
      have hparameters := ih parser.advance rest hsame hrest hclose
      rw [parameters_eq, hname]
      simp only [hparameters, Result.followedBy_ok]
  | prototype name _ ih =>
      intro parser rest hsame hreads
      exact prototype_completes hsame ih hreads
  | definition _ _ ihheader ihbody =>
      intro parser rest hsame hreads
      exact definition_completes hsame ihheader ihbody hreads
  | external _ ih =>
      intro parser rest hsame hreads _
      exact external_completes hsame ih hreads
  | bare hkinds ih =>
      intro parser rest hsame hreads
      exact bare_completes hkinds hsame ih hreads

/-- A unit is read up to where it may end. -/
theorem topLevel_complete {parser rest : Parser} {kinds : List Token.Kind}
    {unit : TopLevel} (hspares : parser.operators.SparesDelimiters)
    (h : Derives parser.operators kinds (.unit unit))
    (hreads : Reads parser kinds rest)
    (hfollows : Follows parser.operators unit kinds rest.current.kind) :
    parser.topLevel = (.ok unit, rest) :=
  derives_complete hspares h parser rest rfl hreads hfollows

end Parser
end Kaleidoscope

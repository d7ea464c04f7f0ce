import Kaleidoscope.Proofs.Grammar.Acceptance
import Kaleidoscope.Proofs.Grammar.Rejection

/-!
# Diagnoses

The parser fails only where a phrase fails.  So an error stands at the first
token that no unit has there, and what it names could have stood there instead.
-/

namespace Kaleidoscope
namespace Parser

def FailsAt (parser : Parser) (category : Category) (kind : SyntaxError.Kind)
    (rest : Parser) : Prop :=
  exists used, Reads parser used rest ∧
    Fails parser.operators category used rest.current.kind kind

def PrimaryDiagnosed (parser : Parser) : Prop :=
  forall {error rest}, parser.primary = (.error error, rest) ->
    parser.FailsAt .primary error.kind rest

def ExpressionDiagnosed (parser : Parser) : Prop :=
  forall {error rest}, parser.expression = (.error error, rest) ->
    parser.FailsAt .expression error.kind rest

theorem failure_eq_error {parser rest : Parser} {kind : SyntaxError.Kind}
    {error : SyntaxError}
    (h : (parser.failure kind : Result α) = (.error error, rest)) :
    error.kind = kind ∧ rest = parser := by
  injection h with herror hrest
  injection herror with herror
  rw [← herror, ← hrest]
  exact ⟨rfl, rfl⟩

theorem expected_eq_error {parser rest : Parser} {c : Char} {kind : SyntaxError.Kind}
    {value : α} {error : SyntaxError}
    (h : parser.expected c kind value = (.error error, rest)) :
    parser.current.kind ≠ .character c ∧ error.kind = kind ∧ rest = parser := by
  unfold expected at h
  by_cases hat : parser.atCharacter c = true
  · rw [if_pos hat] at h
    cases h
  · rw [if_neg hat] at h
    exact ⟨fun hkind => hat (atCharacter_of_kind hkind), failure_eq_error h⟩

/-!
# Operands
-/

theorem arguments_diagnosed {parser : Parser}
    (hexpression : forall other : Parser, other.left ≤ parser.left ->
      other.ExpressionDiagnosed)
    {error : SyntaxError} {rest : Parser}
    (h : parser.arguments = (.error error, rest)) :
    parser.FailsAt .arguments error.kind rest := by
  rw [arguments_eq] at h
  rcases Result.followedBy_eq_error h with herror | ⟨argument, middle, hargument, htail⟩
  · rcases hexpression parser (Nat.le_refl _) herror with ⟨used, hreads, hfails⟩
    exact ⟨used, hreads, Fails.argument hfails⟩
  rcases expression_stops hargument with ⟨kinds, hreads, hderives, hstops⟩
  by_cases hclose : middle.atCharacter ')' = true
  · rw [if_pos hclose] at htail
    cases htail
  rw [if_neg hclose] at htail
  by_cases hcomma : middle.atCharacter ',' = true
  · rw [if_pos hcomma] at htail
    have hkind := kind_of_atCharacter hcomma
    have hused := reads_left hreads
    have hless := advance_left_lt_of_kind hkind (by simp)
    rcases arguments_diagnosed (fun other hother => hexpression other (by omega))
        (Result.followedBy_ok_eq_error htail) with ⟨used, hothers, hfails⟩
    rw [show middle.advance.operators = middle.operators from rfl,
      reads_operators hreads] at hfails
    exact ⟨kinds ++ .character ',' :: used,
      reads_append hreads (reads_cons hkind (by simp) hothers),
      Fails.laterArgument hderives hfails⟩
  · rw [if_neg hcomma] at htail
    rcases failure_eq_error htail with ⟨hkind, hrest⟩
    rw [hkind, hrest]
    exact ⟨kinds, hreads, Fails.delimiter hderives hstops
      (fun hkind => hclose (atCharacter_of_kind hkind))
      (fun hkind => hcomma (atCharacter_of_kind hkind))⟩
termination_by parser.left
decreasing_by omega

theorem reference_diagnosed {parser : Parser} {name : String}
    (hname : parser.current.kind = .identifier name)
    (hexpression : forall other : Parser, other.left < parser.left ->
      other.ExpressionDiagnosed)
    {error : SyntaxError} {rest : Parser}
    (h : parser.reference name = (.error error, rest)) :
    parser.FailsAt .primary error.kind rest := by
  rw [reference_eq] at h
  by_cases hopen : parser.advance.atCharacter '(' = true
  · rw [if_pos hopen] at h
    have hcalled := reads_character (reads_one hname (by simp)) (kind_of_atCharacter hopen)
    by_cases hclose : parser.advance.advance.atCharacter ')' = true
    · rw [if_pos hclose] at h
      cases h
    · rw [if_neg hclose] at h
      have hused := reads_left hcalled
      rcases arguments_diagnosed
          (fun other hother => hexpression other (by
            simp only [List.length_append, List.length_cons, List.length_nil] at hused
            omega)) (Result.followedBy_ok_eq_error h) with ⟨used, hreads, hfails⟩
      have hempty : used = [] -> rest.current.kind ≠ .character ')' := by
        intro hnil hnext
        rw [hnil] at hreads
        rw [← reads_nil_inv hreads] at hnext
        exact hclose (atCharacter_of_kind hnext)
      exact ⟨_, reads_append hcalled hreads, Fails.call name hfails hempty⟩
  · rw [if_neg hopen] at h
    cases h

theorem grouping_diagnosed {parser : Parser}
    (hopen : parser.current.kind = .character '(')
    (hexpression : forall other : Parser, other.left < parser.left ->
      other.ExpressionDiagnosed)
    {error : SyntaxError} {rest : Parser}
    (h : parser.grouping = (.error error, rest)) :
    parser.FailsAt .primary error.kind rest := by
  rw [grouping_eq] at h
  rcases Result.followedBy_eq_error h with herror | ⟨content, middle, hcontent, hlast⟩
  · rcases hexpression parser.advance (advance_left_lt_of_kind hopen (by simp)) herror
      with ⟨used, hreads, hfails⟩
    exact ⟨_, reads_cons hopen (by simp) hreads, Fails.grouping hfails⟩
  · rcases expected_eq_error hlast with ⟨hclose, hkind, hrest⟩
    rcases expression_stops hcontent with ⟨inside, hreads, hderives, hstops⟩
    rw [hkind, hrest]
    exact ⟨_, reads_cons hopen (by simp) hreads, Fails.close hderives hstops hclose⟩

theorem primary_diagnosed {parser : Parser}
    (hexpression : forall other : Parser, other.left < parser.left ->
      other.ExpressionDiagnosed) : parser.PrimaryDiagnosed := by
  intro error rest h
  rw [primary_eq] at h
  split at h
  · next name hname => exact reference_diagnosed hname hexpression h
  · cases h
  · next hopen => exact grouping_diagnosed hopen hexpression h
  · next hname hnumber hopen =>
      rcases failure_eq_error h with ⟨hkind, hrest⟩
      rw [hkind, hrest]
      refine ⟨[], Reads.nothing parser, Fails.operand ?_⟩
      intro hbegins
      generalize parser.current.kind = next at *
      cases hbegins with
      | number value => exact hnumber value rfl
      | name name => exact hname name rfl
      | opening => exact hopen rfl

/-!
# Expressions
-/

theorem broken_diagnosed {parser rest : Parser} {error : SyntaxError}
    (h : Broken 0 parser error rest)
    (hprimary : forall other : Parser, other.left < parser.left ->
      other.PrimaryDiagnosed) : parser.FailsAt .operations error.kind rest := by
  induction h with
  | @operand parser rest op error hkind hreached herror =>
      rcases hprimary parser.advance (advance_left_lt_of_kind hkind (by simp)) herror
        with ⟨used, hreads, hfails⟩
      have hop : parser.operators.IsOperator (.character op) := by
        rw [Operators.isOperator_iff, ← hkind]
        exact Int32.not_lt.mp hreached
      exact ⟨_, reads_cons hkind (by simp) hreads, Fails.operation hop hfails⟩
  | @step parser middle rest op right error hkind hreached hright _ ih =>
      have hused := operation_reaches hkind hright
      rcases primary_sound (fun other _ => expression_sound other) hright with
        ⟨operand, hoperand, hderives, _⟩
      rcases ih (fun other hother => hprimary other (by omega)) with
        ⟨used, hreads, hfails⟩
      have hop : parser.operators.IsOperator (.character op) := by
        rw [Operators.isOperator_iff, ← hkind]
        exact Int32.not_lt.mp hreached
      rw [reads_operators hoperand] at hfails
      exact ⟨_, reads_cons hkind (by simp) (reads_append hoperand hreads),
        Fails.laterOperation hop hderives hfails⟩

theorem expression_diagnosed (parser : Parser) : parser.ExpressionDiagnosed := by
  have hsmaller : forall other : Parser, other.left < parser.left ->
      other.ExpressionDiagnosed :=
    fun other _ => expression_diagnosed other
  intro error rest h
  rw [expression_eq] at h
  rcases Result.followedBy_eq_error h with herror | ⟨left, middle, hleft, hloop⟩
  · rcases primary_diagnosed hsmaller herror with ⟨used, hreads, hfails⟩
    exact ⟨used, hreads, Fails.left hfails⟩
  · rcases primary_sound (fun other _ => expression_sound other) hleft with
      ⟨operand, hoperand, hderives, _⟩
    have hused := reads_left hoperand
    have hprimary : forall other : Parser, other.left < middle.left ->
        other.PrimaryDiagnosed := by
      intro other hother
      apply primary_diagnosed
      intro further hfurther
      exact hsmaller further (by omega)
    rcases broken_diagnosed (broken_of_operations (Int32.le_refl 0) hloop) hprimary with
      ⟨used, hreads, hfails⟩
    rw [reads_operators hoperand] at hfails
    exact ⟨_, reads_append hoperand hreads, Fails.right hderives hfails⟩
termination_by parser.left

/-!
# Prototypes and units
-/

theorem parameters_ok (parser : Parser) :
    exists names rest, parser.parameters = (.ok names, rest) ∧
      forall name, rest.current.kind ≠ .identifier name := by
  rw [parameters_eq]
  split
  · next name hname =>
      have hless := advance_left_lt_of_kind hname (by simp)
      rcases parameters_ok parser.advance with ⟨names, rest, hnames, hrest⟩
      exists name :: names, rest
      rw [hnames]
      exact ⟨rfl, hrest⟩
  · next hname => exact ⟨[], parser, rfl, hname⟩
termination_by parser.left

theorem prototype_diagnosed {parser rest : Parser} {error : SyntaxError}
    (h : parser.prototype = (.error error, rest)) :
    parser.FailsAt .prototype error.kind rest := by
  rw [prototype_eq] at h
  split at h
  · next name hname =>
      have hread : Reads parser [.identifier name] parser.advance :=
        reads_one hname (by simp)
      by_cases hopen : parser.advance.atCharacter '(' = true
      · rw [if_pos hopen] at h
        rcases parameters_ok parser.advance.advance with ⟨names, middle, hnames, hnone⟩
        rw [hnames, Result.followedBy_ok] at h
        rcases expected_eq_error h with ⟨hclose, hkind, hrest⟩
        rcases parameters_sound hnames with ⟨inside, hinside, hderives⟩
        rw [hkind, hrest]
        exact ⟨_, reads_append (reads_character hread (kind_of_atCharacter hopen)) hinside,
          Fails.closePrototype name hderives hnone hclose⟩
      · rw [if_neg hopen] at h
        rcases failure_eq_error h with ⟨hkind, hrest⟩
        rw [hkind, hrest]
        exact ⟨_, hread,
          Fails.openPrototype name fun hnext => hopen (atCharacter_of_kind hnext)⟩
  · next hname =>
      rcases failure_eq_error h with ⟨hkind, hrest⟩
      rw [hkind, hrest]
      exact ⟨[], Reads.nothing parser, Fails.functionName hname⟩

theorem definition_diagnosed {parser rest : Parser} {error : SyntaxError}
    (hdefine : parser.current.kind = .define)
    (h : parser.definition = (.error error, rest)) :
    parser.FailsAt .unit error.kind rest := by
  rw [definition_eq] at h
  rcases Result.followedBy_eq_error h with herror | ⟨prototype, middle, hprototype, hbody⟩
  · rcases prototype_diagnosed herror with ⟨used, hreads, hfails⟩
    exact ⟨_, reads_cons hdefine (by simp) hreads, Fails.definitionHeader hfails⟩
  · rcases prototype_sound hprototype with ⟨header, hheader, hderives⟩
    rcases expression_diagnosed middle (Result.followedBy_ok_eq_error hbody) with
      ⟨used, hreads, hfails⟩
    rw [reads_operators hheader] at hfails
    exact ⟨_, reads_cons hdefine (by simp) (reads_append hheader hreads),
      Fails.definitionBody hderives hfails⟩

theorem external_diagnosed {parser rest : Parser} {error : SyntaxError}
    (hexternal : parser.current.kind = .external)
    (h : parser.external = (.error error, rest)) :
    parser.FailsAt .unit error.kind rest := by
  rw [external_eq] at h
  rcases prototype_diagnosed h with ⟨used, hreads, hfails⟩
  exact ⟨_, reads_cons hexternal (by simp) hreads, Fails.external hfails⟩

theorem bareExpression_diagnosed {parser rest : Parser} {error : SyntaxError}
    (hdefine : parser.current.kind ≠ .define)
    (hexternal : parser.current.kind ≠ .external)
    (h : parser.bareExpression = (.error error, rest)) :
    parser.FailsAt .unit error.kind rest := by
  rw [bareExpression_eq] at h
  rcases expression_diagnosed parser (Result.followedBy_ok_eq_error h) with
    ⟨used, hreads, hfails⟩
  refine ⟨used, hreads, Fails.bare hfails ?_⟩
  intro hnil
  rw [hnil] at hreads
  rw [← reads_nil_inv hreads]
  exact ⟨hdefine, hexternal⟩

theorem topLevel_diagnosed {parser rest : Parser} {error : SyntaxError}
    (h : parser.topLevel = (.error error, rest)) :
    parser.FailsAt .unit error.kind rest := by
  rw [topLevel_eq] at h
  split at h
  · next hdefine => exact definition_diagnosed hdefine (Result.followedBy_ok_eq_error h)
  · next hexternal => exact external_diagnosed hexternal (Result.followedBy_ok_eq_error h)
  · next hdefine hexternal =>
      exact bareExpression_diagnosed hdefine hexternal (Result.followedBy_ok_eq_error h)

/-!
# Errors are early and true
-/

/-- The tokens are the beginning of some unit. -/
def BeginsUnit (operators : Operators) (kinds : List Token.Kind) : Prop :=
  exists further unit, Derives operators (kinds ++ further) (.unit unit)

/-- An error after the used tokens, at the lookahead of the parser that is left. -/
structure Early (operators : Operators) (used : List Token.Kind) (next : Token.Kind)
    (kind : SyntaxError.Kind) : Prop where
  begun : BeginsUnit operators used
  rejected : next ≠ .endOfInput -> ¬ BeginsUnit operators (used ++ [next])
  unfinished : next = .endOfInput -> forall unit, ¬ Derives operators used (.unit unit)
  truthful {expected : Token.Kind} :
    kind.Expects expected -> BeginsUnit operators (used ++ [expected])

theorem expects_some (kind : SyntaxError.Kind) : exists expected, kind.Expects expected := by
  cases kind with
  | expectedCloseParen => exact ⟨_, .close⟩
  | expectedArgumentDelimiter => exact ⟨_, .comma⟩
  | unknownToken => exact ⟨_, .operand .opening⟩
  | expectedFunctionName => exact ⟨_, .functionName "x"⟩
  | expectedPrototypeOpenParen => exact ⟨_, .openPrototype⟩
  | expectedPrototypeCloseParen => exact ⟨_, .closePrototype⟩

theorem stops_at_end (operators : Operators) (kinds : List Token.Kind) :
    Stops operators kinds .endOfInput where
  not_operator := by
    rintro ⟨op, precedence, hcharacter, _⟩
    cases hcharacter
  not_called := nofun

theorem early_of_fails {operators : Operators} (hspares : operators.SparesDelimiters)
    {used : List Token.Kind} {next : Token.Kind} {kind : SyntaxError.Kind}
    (h : Fails operators .unit used next kind) : Early operators used next kind where
  begun := by
    rcases expects_some kind with ⟨expected, hexpects⟩
    rcases fails_expects h hexpects with ⟨further, unit, hderives⟩
    rw [List.append_assoc] at hderives
    exact ⟨_, unit, hderives⟩
  rejected := by
    rintro - ⟨further, unit, hderives⟩
    rw [List.append_assoc] at hderives
    exact fails_stuck hspares h further ⟨unit, hderives⟩ (List.append_nil _) nofun
  unfinished := by
    intro hend unit hderives
    rw [hend] at h
    exact fails_stuck hspares h [] ⟨unit, hderives⟩ rfl
      (stopped_of_stops (stops_at_end operators used) [])
  truthful hexpects := fails_expects h hexpects

/--
An error stands at the first token that no unit has in its place, and whatever it
names would have been accepted there.
-/
theorem topLevel_error_early {parser rest : Parser} {error : SyntaxError}
    (hspares : parser.operators.SparesDelimiters)
    (h : parser.topLevel = (.error error, rest)) :
    exists used, parser.Consumes used rest ∧ error = rest.errorHere error.kind ∧
      Early parser.operators (used.map Token.kind) rest.current.kind error.kind := by
  rcases topLevel_diagnosed h with ⟨kinds, hreads, hfails⟩
  rcases consumes_of_reads hreads with ⟨used, hused, hconsumes⟩
  rcases topLevel_error h with ⟨kind, herror⟩
  refine ⟨used, hconsumes, ?_, ?_⟩
  · rw [herror]
    rfl
  · rw [hused]
    exact early_of_fails hspares hfails

def unclosedArguments : Parser :=
  start (.start (.ofChars ['f', '(', 'x', ' ', 'd', 'e', 'f']) Scanner.unnamed)

theorem unclosedArguments_error_early :
    exists error rest used,
      unclosedArguments.topLevel = (.error error, rest) ∧
        unclosedArguments.Consumes used rest ∧ error = rest.errorHere error.kind ∧
        Early .standard (used.map Token.kind) rest.current.kind error.kind := by
  have h : unclosedArguments.topLevel = (.error _, _) := rfl
  rcases topLevel_error_early Operators.standard_sparesDelimiters h with
    ⟨used, hconsumes, herror, hearly⟩
  exact ⟨_, _, used, h, hconsumes, herror, hearly⟩

def wideGrouping : Parser :=
  (start (.start (.ofChars ['(', 'a', ' ', 'é', ' ', 'b', ')']) Scanner.unnamed)).install
    'é' 10

/--
A character that is not ASCII is met as an error even where every operator could
stand and a precedence is installed for it.
-/
theorem topLevel_fails_at_wide_character :
    wideGrouping.operators.SparesDelimiters ∧
      wideGrouping.operators.entries.lookup 'é' = some 10 ∧
      (exists error rest last,
        wideGrouping.topLevel = (.error error, rest) ∧
          error.kind = .expectedCloseParen ∧
          Reads wideGrouping [.character '(', .identifier "a"] rest ∧
          Reads rest [.character 'é', .identifier "b", .character ')'] last ∧
          last.current.kind = .endOfInput) ∧
      forall op, wideGrouping.operators.IsOperator (.character op) ->
        exists unit, Derives wideGrouping.operators
          [.character '(', .identifier "a", .character op, .identifier "b",
            .character ')'] (.unit unit) := by
  refine ⟨Operators.install_sparesDelimiters Operators.standard_sparesDelimiters rfl 10,
    rfl, ?_, ?_⟩
  · have hused : Reads wideGrouping [.character '(', .identifier "a"] _ :=
      reads_cons rfl nofun (reads_one rfl nofun)
    have hothers : Reads wideGrouping.advance.advance
        [.character 'é', .identifier "b", .character ')'] _ :=
      reads_cons rfl nofun (reads_cons rfl nofun (reads_one rfl nofun))
    exact ⟨_, _, _, rfl, rfl, hused, hothers, rfl⟩
  · intro op hop
    have hright := Derives.operation hop (Derives.var "b") Derives.noOperation
    have hinside := Derives.expression (Derives.var "a") hright
    have hgrouping := Derives.grouping hinside
    exact ⟨_, Derives.bare (Derives.expression hgrouping Derives.noOperation)⟩

end Parser
end Kaleidoscope

import Kaleidoscope.Proofs.Grammar.Derivation

/-!
# Soundness of the parser

Whatever a construct returns, the kinds that it has read derive the value, and
it stops where the value may end.  This holds for every operator table.
-/

namespace Kaleidoscope
namespace Parser

/-- A name at the end of the kinds is not called by what the parser is at. -/
def NotCalled (kinds : List Token.Kind) (rest : Parser) : Prop :=
  EndsInIdentifier kinds -> rest.current.kind ≠ .character '('

def PrimarySound (parser : Parser) : Prop :=
  forall {value rest}, parser.primary = (.ok value, rest) ->
    exists kinds, Reads parser kinds rest ∧
      Derives parser.operators kinds (.primary value) ∧ NotCalled kinds rest

def ExpressionSound (parser : Parser) : Prop :=
  forall {value rest}, parser.expression = (.ok value, rest) ->
    exists kinds, Reads parser kinds rest ∧
      Derives parser.operators kinds (.expression value) ∧
      rest.precedence < 0 ∧ NotCalled kinds rest

theorem notCalled_close (kinds : List Token.Kind) (rest : Parser) :
    NotCalled (kinds ++ [.character ')']) rest :=
  fun hlast => absurd hlast (not_endsInIdentifier_close kinds)

theorem notCalled_append {kinds others : List Token.Kind} {middle rest : Parser}
    (hfirst : NotCalled kinds middle) (hothers : NotCalled others rest)
    (hreads : Reads middle others rest) : NotCalled (kinds ++ others) rest := by
  cases others with
  | nil =>
      rw [List.append_nil, ← reads_nil_inv hreads]
      exact hfirst
  | cons kind others =>
      intro hlast
      exact hothers ((endsInIdentifier_append (List.cons_ne_nil _ _)).mp hlast)

theorem notCalled_character {kinds : List Token.Kind} {rest : Parser}
    (h : NotCalled kinds rest) (c : Char) :
    NotCalled (.character c :: kinds) rest := by
  cases kinds with
  | nil =>
      rintro ⟨name, hlast⟩
      cases hlast
  | cons kind kinds =>
      intro hlast
      exact h ((endsInIdentifier_cons _ (List.cons_ne_nil kind kinds)).mp hlast)

theorem atCharacter_of_kind {parser : Parser} {c : Char}
    (h : parser.current.kind = .character c) : parser.atCharacter c = true :=
  (Token.isCharacter_iff c _).mpr h

theorem kind_of_atCharacter {parser : Parser} {c : Char}
    (h : parser.atCharacter c = true) : parser.current.kind = .character c :=
  (Token.isCharacter_iff c _).mp h

theorem reads_character {parser middle : Parser} {kinds : List Token.Kind}
    (h : Reads parser kinds middle) {c : Char}
    (hc : middle.current.kind = .character c) :
    Reads parser (kinds ++ [.character c]) middle.advance :=
  reads_append h (reads_one hc (by simp))

theorem expected_eq_ok {parser rest : Parser} {c : Char} {kind : SyntaxError.Kind}
    {value result : α} (h : parser.expected c kind value = (.ok result, rest)) :
    parser.current.kind = .character c ∧ result = value ∧ rest = parser.advance := by
  unfold expected at h
  cases hat : parser.atCharacter c with
  | true =>
      rw [if_pos hat] at h
      injection h with hvalue hrest
      injection hvalue with hvalue
      exact ⟨kind_of_atCharacter hat, hvalue.symm, hrest.symm⟩
  | false =>
      rw [if_neg (by simp [hat])] at h
      injection h with hvalue _
      cases hvalue

/-!
# Operands
-/

theorem arguments_sound {parser : Parser}
    (hexpression : forall other : Parser, other.left ≤ parser.left ->
      other.ExpressionSound)
    {values : List Expr} {rest : Parser}
    (h : parser.arguments = (.ok values, rest)) :
    exists kinds, Reads parser kinds rest ∧
      Derives parser.operators kinds (.arguments values) ∧
      rest.current.kind = .character ')' := by
  rw [arguments_eq] at h
  rcases Result.followedBy_eq_ok h with ⟨argument, middle, hargument, htail⟩
  rcases hexpression parser (Nat.le_refl _) hargument with
    ⟨kinds, hreads, hderives, _, _⟩
  by_cases hclose : middle.atCharacter ')' = true
  · rw [if_pos hclose] at htail
    injection htail with hvalues hrest
    injection hvalues with hvalues
    rw [← hvalues, ← hrest]
    exact ⟨kinds, hreads, Derives.lastArgument hderives, kind_of_atCharacter hclose⟩
  · rw [if_neg hclose] at htail
    by_cases hcomma : middle.atCharacter ',' = true
    · rw [if_pos hcomma] at htail
      rcases Result.followedBy_eq_ok htail with ⟨others, last, hothers, hlast⟩
      injection hlast with hvalues hrest
      injection hvalues with hvalues
      have hkind := kind_of_atCharacter hcomma
      have hsame := reads_operators hreads
      have hused := reads_left hreads
      have hless := advance_left_lt_of_kind hkind (by simp)
      rcases arguments_sound
          (fun other hother => hexpression other (by omega)) hothers with
        ⟨further, hfurther, hderivesOthers, hatClose⟩
      rw [← hvalues, ← hrest]
      rw [show middle.advance.operators = middle.operators from rfl, hsame]
        at hderivesOthers
      exact ⟨kinds ++ .character ',' :: further,
        reads_append hreads (reads_cons hkind (by simp) hfurther),
        Derives.nextArgument hderives hderivesOthers, hatClose⟩
    · rw [if_neg hcomma] at htail
      injection htail with hvalue _
      cases hvalue
termination_by parser.left
decreasing_by omega

theorem reference_sound {parser : Parser} {name : String}
    (hname : parser.current.kind = .identifier name)
    (hexpression : forall other : Parser, other.left < parser.left ->
      other.ExpressionSound)
    {value : Expr} {rest : Parser}
    (h : parser.reference name = (.ok value, rest)) :
    exists kinds, Reads parser kinds rest ∧
      Derives parser.operators kinds (.primary value) ∧ NotCalled kinds rest := by
  rw [reference_eq] at h
  have hread : Reads parser [.identifier name] parser.advance :=
    reads_one hname (by simp)
  by_cases hopen : parser.advance.atCharacter '(' = true
  · rw [if_pos hopen] at h
    have hcalled := reads_character hread (kind_of_atCharacter hopen)
    by_cases hclose : parser.advance.advance.atCharacter ')' = true
    · rw [if_pos hclose] at h
      injection h with hvalue hrest
      injection hvalue with hvalue
      rw [← hvalue, ← hrest]
      exact ⟨_, reads_character hcalled (kind_of_atCharacter hclose),
        Derives.emptyCall name, notCalled_close _ _⟩
    · rw [if_neg hclose] at h
      rcases Result.followedBy_eq_ok h with ⟨values, middle, hvalues, hlast⟩
      injection hlast with hvalue hrest
      injection hvalue with hvalue
      have hused := reads_left hcalled
      rcases arguments_sound
          (fun other hother => hexpression other (by
            simp only [List.length_append, List.length_cons, List.length_nil] at hused
            omega)) hvalues with
        ⟨inside, hinside, hderives, hatClose⟩
      rw [← hvalue, ← hrest]
      exact ⟨_, reads_character (reads_append hcalled hinside) hatClose,
        Derives.call name hderives, notCalled_close _ _⟩
  · rw [if_neg hopen] at h
    injection h with hvalue hrest
    injection hvalue with hvalue
    rw [← hvalue, ← hrest]
    exact ⟨_, hread, Derives.var name,
      fun _ hkind => hopen (atCharacter_of_kind hkind)⟩

theorem grouping_sound {parser : Parser}
    (hopen : parser.current.kind = .character '(')
    (hexpression : forall other : Parser, other.left < parser.left ->
      other.ExpressionSound)
    {value : Expr} {rest : Parser} (h : parser.grouping = (.ok value, rest)) :
    exists kinds, Reads parser kinds rest ∧
      Derives parser.operators kinds (.primary value) ∧ NotCalled kinds rest := by
  rw [grouping_eq] at h
  rcases Result.followedBy_eq_ok h with ⟨content, middle, hcontent, hlast⟩
  rcases expected_eq_ok hlast with ⟨hclose, hvalue, hrest⟩
  rcases hexpression parser.advance (advance_left_lt_of_kind hopen (by simp))
    hcontent with ⟨inside, hinside, hderives, _, _⟩
  rw [hvalue, hrest]
  exact ⟨_, reads_character (reads_cons hopen (by simp) hinside) hclose,
    Derives.grouping hderives, notCalled_close (.character '(' :: inside) _⟩

theorem primary_sound {parser : Parser}
    (hexpression : forall other : Parser, other.left < parser.left ->
      other.ExpressionSound) : parser.PrimarySound := by
  intro value rest h
  rw [primary_eq] at h
  split at h
  · next name hname => exact reference_sound hname hexpression h
  · next number hnumber =>
      injection h with hvalue hrest
      injection hvalue with hvalue
      rw [← hvalue, ← hrest]
      refine ⟨_, reads_one hnumber (by simp), Derives.number number, ?_⟩
      rintro ⟨name, hlast⟩
      cases hlast
  · next hopen => exact grouping_sound hopen hexpression h
  · injection h with hvalue _
    cases hvalue

/-!
# Operations
-/

theorem run_sound {least : Int32} (hleast : 0 ≤ least) {parser rest : Parser}
    {operations : List Operation} (h : Run least parser operations rest)
    (hprimary : forall other : Parser, other.left < parser.left ->
      other.PrimarySound) :
    exists kinds, Reads parser kinds rest ∧
      Derives parser.operators kinds (.operations operations) ∧
      NotCalled kinds rest := by
  induction h with
  | stop _ =>
      refine ⟨[], Reads.nothing _, Derives.noOperation, ?_⟩
      rintro ⟨name, hlast⟩
      cases hlast
  | @step parser middle rest op right operations hkind hreached hright _ ih =>
      have hused := operation_reaches hkind hright
      rcases hprimary parser.advance (advance_left_lt_of_kind hkind (by simp))
        hright with ⟨operand, hoperand, hderives, hstop⟩
      rcases ih (fun other hother => hprimary other (by omega)) with
        ⟨others, hothers, hderivesOthers, hnotCalled⟩
      have hop : parser.operators.IsOperator (.character op) := by
        rw [Operators.isOperator_iff, ← hkind]
        exact nonneg_of_not_lt hleast hreached
      rw [reads_operators hoperand] at hderivesOthers
      exact ⟨_, reads_cons hkind (by simp) (reads_append hoperand hothers),
        Derives.operation hop hderives hderivesOthers,
        notCalled_append (notCalled_character hstop op) hnotCalled hothers⟩

/-!
# Expressions
-/

theorem expression_sound (parser : Parser) : parser.ExpressionSound := by
  have hsmaller : forall other : Parser, other.left < parser.left ->
      other.ExpressionSound :=
    fun other _ => expression_sound other
  intro value rest h
  rw [expression_eq] at h
  rcases Result.followedBy_eq_ok h with ⟨left, middle, hleft, hloop⟩
  rcases primary_sound hsmaller hleft with ⟨operand, hoperand, hderives, hstop⟩
  have hused := reads_left hoperand
  have hsame := reads_operators hoperand
  rcases (operations_eq_ok_iff (Int32.le_refl 0)).mp hloop with
    ⟨operations, hrun, hvalue⟩
  have hprimary : forall other : Parser, other.left < middle.left ->
      other.PrimarySound := by
    intro other hother
    apply primary_sound
    intro further hfurther
    exact hsmaller further (by omega)
  rcases run_sound (Int32.le_refl 0) hrun hprimary with
    ⟨others, hothers, hderivesOthers, hnotCalled⟩
  rw [hsame] at hderivesOthers
  rw [hvalue, hsame]
  exact ⟨operand ++ others, reads_append hoperand hothers,
    Derives.expression hderives hderivesOthers, run_precedence hrun,
    notCalled_append hstop hnotCalled hothers⟩
termination_by parser.left

theorem stops_of_precedence {parser : Parser} {kinds : List Token.Kind}
    (h : parser.precedence < 0) (hnotCalled : NotCalled kinds parser) :
    Stops parser.operators kinds parser.current.kind where
  not_operator := by
    rw [Operators.isOperator_iff]
    exact Int32.not_le.mpr h
  not_called := hnotCalled

theorem expression_stops {parser rest : Parser} {value : Expr}
    (h : parser.expression = (.ok value, rest)) :
    exists kinds, Reads parser kinds rest ∧
      Derives parser.operators kinds (.expression value) ∧
      Stops parser.operators kinds rest.current.kind := by
  rcases expression_sound parser h with ⟨kinds, hkinds, hderives, hstop, hnotCalled⟩
  have hstops := stops_of_precedence hstop hnotCalled
  rw [reads_operators hkinds] at hstops
  exact ⟨kinds, hkinds, hderives, hstops⟩

/-!
# Top-level units
-/

theorem parameters_sound {parser : Parser} {names : List String} {rest : Parser}
    (h : parser.parameters = (.ok names, rest)) :
    exists kinds, Reads parser kinds rest ∧
      Derives parser.operators kinds (.parameters names) := by
  rw [parameters_eq] at h
  split at h
  · next name hname =>
      rcases Result.followedBy_eq_ok h with ⟨others, middle, hothers, hlast⟩
      injection hlast with hvalue hrest
      injection hvalue with hvalue
      have hless := advance_left_lt_of_kind hname (by simp)
      rcases parameters_sound hothers with ⟨kinds, hreads, hderives⟩
      rw [← hvalue, ← hrest]
      exact ⟨_, reads_cons hname (by simp) hreads, Derives.parameter name hderives⟩
  · injection h with hvalue hrest
    injection hvalue with hvalue
    rw [← hvalue, ← hrest]
    exact ⟨[], Reads.nothing parser, Derives.noParameter⟩
termination_by parser.left

theorem prototype_sound {parser : Parser} {value : Prototype} {rest : Parser}
    (h : parser.prototype = (.ok value, rest)) :
    exists kinds, Reads parser kinds rest ∧
      Derives parser.operators kinds (.prototype value) := by
  rw [prototype_eq] at h
  split at h
  · next name hname =>
      by_cases hopen : parser.advance.atCharacter '(' = true
      · rw [if_pos hopen] at h
        rcases Result.followedBy_eq_ok h with ⟨names, middle, hnames, hlast⟩
        rcases expected_eq_ok hlast with ⟨hclose, hvalue, hrest⟩
        rcases parameters_sound hnames with ⟨inside, hinside, hderives⟩
        have hcalled := reads_character (reads_one hname (by simp))
          (kind_of_atCharacter hopen)
        rw [hvalue, hrest]
        exact ⟨_, reads_character (reads_append hcalled hinside) hclose,
          Derives.prototype name hderives⟩
      · rw [if_neg hopen] at h
        injection h with hvalue _
        cases hvalue
  · injection h with hvalue _
    cases hvalue

theorem definition_sound {parser rest : Parser} {value : Definition}
    (hdefine : parser.current.kind = .define)
    (h : parser.definition = (.ok value, rest)) :
    exists kinds, Reads parser kinds rest ∧
      Derives parser.operators kinds (.unit (.definition value)) ∧
      Stops parser.operators kinds rest.current.kind := by
  rw [definition_eq] at h
  rcases Result.followedBy_eq_ok h with ⟨prototype, middle, hprototype, hbody⟩
  rcases Result.followedBy_eq_ok hbody with ⟨body, final, hbody, hfinal⟩
  injection hfinal with hvalue hrest
  injection hvalue with hvalue
  rcases prototype_sound hprototype with ⟨header, hheader, hderives⟩
  rcases expression_stops hbody with ⟨kinds, hkinds, hderivesBody, hstops⟩
  have hread := reads_cons hdefine (by simp) hheader
  rw [reads_operators hread] at hderivesBody hstops
  have hne : kinds ≠ [] := by
    rcases derives_begins hderivesBody with ⟨first, others, hbegins, _⟩
    rw [hbegins]
    exact List.cons_ne_nil _ _
  rw [← hvalue, ← hrest]
  exists _, reads_append hread hkinds, Derives.definition hderives hderivesBody
  constructor
  · exact hstops.not_operator
  · intro hends
    exact hstops.not_called ((endsInIdentifier_append hne).mp hends)

theorem external_sound {parser rest : Parser} {value : Prototype}
    (hexternal : parser.current.kind = .external)
    (h : parser.external = (.ok value, rest)) :
    exists kinds, Reads parser kinds rest ∧
      Derives parser.operators kinds (.unit (.external value)) := by
  rw [external_eq] at h
  rcases prototype_sound h with ⟨header, hheader, hderives⟩
  exact ⟨_, reads_cons hexternal (by simp) hheader, Derives.external hderives⟩

theorem bareExpression_sound {parser rest : Parser} {value : Definition}
    (h : parser.bareExpression = (.ok value, rest)) :
    exists kinds, Reads parser kinds rest ∧
      Derives parser.operators kinds (.unit (.expression value)) ∧
      Stops parser.operators kinds rest.current.kind := by
  rw [bareExpression_eq] at h
  rcases Result.followedBy_eq_ok h with ⟨body, final, hbody, hfinal⟩
  injection hfinal with hvalue hrest
  injection hvalue with hvalue
  rcases expression_stops hbody with ⟨kinds, hkinds, hderives, hstops⟩
  rw [← hvalue, ← hrest]
  exact ⟨kinds, hkinds, Derives.bare hderives, hstops⟩

/-- A unit is read as the grammar derives it, up to where it may end. -/
theorem topLevel_sound {parser : Parser} {unit : TopLevel} {rest : Parser}
    (h : parser.topLevel = (.ok unit, rest)) :
    exists kinds, Reads parser kinds rest ∧
      Derives parser.operators kinds (.unit unit) ∧
      Follows parser.operators unit kinds rest.current.kind := by
  rw [topLevel_eq] at h
  split at h
  · next hdefine =>
      rcases Result.followedBy_eq_ok h with ⟨value, last, hvalue, hlast⟩
      injection hlast with hunit hrest
      injection hunit with hunit
      rw [← hunit, ← hrest]
      exact definition_sound hdefine hvalue
  · next hexternal =>
      rcases Result.followedBy_eq_ok h with ⟨value, last, hvalue, hlast⟩
      injection hlast with hunit hrest
      injection hunit with hunit
      rcases external_sound hexternal hvalue with ⟨kinds, hreads, hderives⟩
      rw [← hunit, ← hrest]
      exact ⟨kinds, hreads, hderives, trivial⟩
  · rcases Result.followedBy_eq_ok h with ⟨value, last, hvalue, hlast⟩
    injection hlast with hunit hrest
    injection hunit with hunit
    rw [← hunit, ← hrest]
    exact bareExpression_sound hvalue

end Parser
end Kaleidoscope

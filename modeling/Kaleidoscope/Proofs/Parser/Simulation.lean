import Kaleidoscope.Proofs.Parser.Equations

/-!
# Simulations of parsers

Two parsers behave alike if a relation between them says that their lookaheads
are alike, that it holds again after an accepted lookahead, and that both
operator tables order operators alike.  One induction over all constructs shows
that their results are then related: the same value, or the same kind of error,
each described by the parser that met it.
-/

namespace Kaleidoscope

/-!
# Signs of precedences
-/

namespace Operators

theorem precedence?_pos {operators : Operators} {c : Char} {precedence : Int32}
    (h : operators.precedence? c = some precedence) : 0 < precedence := by
  unfold precedence? at h
  split at h
  · have hfilter := (Option.filter_eq_some_iff.mp h).right
    exact of_decide_eq_true hfilter
  · cases h

theorem precedence_of_neg {operators : Operators} {kind : Token.Kind}
    (h : operators.precedence kind < 0) :
    operators.precedence kind = notAnOperator := by
  cases kind with
  | character c =>
      cases hc : operators.precedence? c with
      | none => simp [precedence, hc]
      | some q =>
          have hpos := precedence?_pos hc
          simp only [precedence, hc, Option.getD_some] at h
          exact absurd hpos (Int32.lt_asymm h)
  | endOfInput => rfl
  | define => rfl
  | external => rfl
  | identifier name => rfl
  | number value => rfl

end Operators

namespace Parser

/-- The lookahead is a token that no construct accepts. -/
def Inert (parser : Parser) : Prop :=
  parser.precedence < 0 ∧
    (parser.current.kind = .endOfInput ∨
      exists c, parser.current.kind = .character c ∧
        c ≠ '(' ∧ c ≠ ')' ∧ c ≠ ',')

theorem not_inert_of_kind {parser : Parser} {kind : Token.Kind}
    (h : parser.current.kind = kind) (hend : kind ≠ .endOfInput)
    (hcharacter : forall c, kind ≠ .character c) : ¬ parser.Inert := by
  intro hinert
  rcases hinert with ⟨_, hkind | ⟨c, hkind, _⟩⟩
  · exact hend (h.symm.trans hkind)
  · exact hcharacter c (h.symm.trans hkind)

def isDelimiter (c : Char) : Bool :=
  c == '(' || c == ')' || c == ','

theorem not_inert_delimiter {parser : Parser} {c : Char}
    (hc : isDelimiter c = true) (h : parser.current.kind = .character c) :
    ¬ parser.Inert := by
  intro hinert
  rcases hinert with ⟨_, hend | ⟨d, hd, hopen, hclose, hcomma⟩⟩
  · rw [h] at hend
    cases hend
  · rw [h] at hd
    injection hd with hd
    subst hd
    simp [isDelimiter, hopen, hclose, hcomma] at hc

theorem inert_not_atCharacter {parser : Parser} {c : Char}
    (hc : isDelimiter c = true) (h : parser.Inert) :
    parser.atCharacter c = false := by
  cases hat : parser.atCharacter c with
  | false => rfl
  | true =>
      exact absurd h (not_inert_delimiter hc ((Token.isCharacter_iff c _).mp hat))

/-!
# Relations that are kept
-/

structure Simulation (R : Parser -> Parser -> Prop) : Prop where
  alike {parser other : Parser} : R parser other ->
    parser.current.kind = other.current.kind ∨ parser.Inert ∧ other.Inert
  advance {parser other : Parser} : R parser other -> ¬ parser.Inert ->
    R parser.advance other.advance
  operator {parser other : Parser} : R parser other ->
    (parser.precedence < 0 <-> other.precedence < 0)
  order {parser other further another : Parser} :
    R parser other -> R further another ->
      (parser.precedence < further.precedence <->
        other.precedence < another.precedence)

/-- Related replies have the same value, or errors of one kind at related parsers. -/
inductive Reply.Related (R : Parser -> Parser -> Prop) :
    Reply α -> Reply α -> Prop where
  | parsed (value : α) {rest other : Parser} : R rest other ->
      Related R (.parsed value rest) (.parsed value other)
  | failed (kind : SyntaxError.Kind) {rest other : Parser} : R rest other ->
      Related R (.failed (rest.errorHere kind) rest)
        (.failed (other.errorHere kind) other)
  | tooDeep : Related R .tooDeep .tooDeep

inductive Result.Related (R : Parser -> Parser -> Prop) :
    Result α -> Result α -> Prop where
  | ok (value : α) {rest other : Parser} : R rest other ->
      Related R (.ok value, rest) (.ok value, other)
  | error (kind : SyntaxError.Kind) {rest other : Parser} : R rest other ->
      Related R (.error (rest.errorHere kind), rest)
        (.error (other.errorHere kind), other)

variable {R : Parser -> Parser -> Prop}

theorem related_andThen {x y : Reply α} {f g : α -> Parser -> Reply β}
    (h : Reply.Related R x y)
    (hnext : forall value rest other, x = .parsed value rest -> R rest other ->
      Reply.Related R (f value rest) (g value other)) :
    Reply.Related R (x.andThen f) (y.andThen g) := by
  cases h with
  | parsed value hrest => exact hnext value _ _ rfl hrest
  | failed kind hrest => exact Reply.Related.failed kind hrest
  | tooDeep => exact Reply.Related.tooDeep

theorem related_map {x y : Reply α} (f : α -> β) (h : Reply.Related R x y) :
    Reply.Related R (x.map f) (y.map f) :=
  related_andThen h fun _ _ _ _ hrest => Reply.Related.parsed _ hrest

theorem related_of_reply {x y : Result α} (h : Reply.Related R x.reply y.reply) :
    Result.Related R x y := by
  rcases x with ⟨error | value, rest⟩
  · rcases y with ⟨error' | value', rest'⟩
    · cases h with
      | failed kind hrest => exact Result.Related.error kind hrest
    · cases h
  · rcases y with ⟨error' | value', rest'⟩
    · cases h
    · cases h with
      | parsed value hrest => exact Result.Related.ok value hrest

theorem related_settled {parse : Nat -> Parser -> Reply α} (hsteady : Steady parse)
    {parser other : Parser}
    (h : forall depth, Reply.Related R (parse depth parser) (parse depth other)) :
    Result.Related R (parser.settled parse) (other.settled parse) := by
  rcases hsteady.tends parser with ⟨bound, hbound⟩
  rcases hsteady.tends other with ⟨bound', hbound'⟩
  have hparser := hbound _ (Nat.le_max_left bound bound')
  have hother := hbound' _ (Nat.le_max_right bound bound')
  apply related_of_reply
  rw [← hparser, ← hother]
  exact h (max bound bound')

namespace Simulation

variable (sim : Simulation R)
include sim

theorem atCharacter_eq {parser other : Parser} (h : R parser other) {c : Char}
    (hc : isDelimiter c = true) : parser.atCharacter c = other.atCharacter c := by
  cases sim.alike h with
  | inl hsame => simp [atCharacter, Token.isCharacter, hsame]
  | inr hboth =>
      rw [inert_not_atCharacter hc hboth.left, inert_not_atCharacter hc hboth.right]

theorem advance_of_atCharacter {parser other : Parser} (h : R parser other)
    {c : Char} (hc : isDelimiter c = true) (hat : parser.atCharacter c = true) :
    R parser.advance other.advance :=
  sim.advance h (not_inert_delimiter hc ((Token.isCharacter_iff c _).mp hat))

theorem related_expect {parser other : Parser} (h : R parser other) {c : Char}
    (hc : isDelimiter c = true) (kind : SyntaxError.Kind)
    {f g : Token -> Parser -> Reply α}
    (hnext : R parser.advance other.advance ->
      Reply.Related R (f parser.current parser.advance)
        (g other.current other.advance)) :
    Reply.Related R ((parser.expect c kind).andThen f)
      ((other.expect c kind).andThen g) := by
  have hat := sim.atCharacter_eq h hc
  unfold expect
  cases hparser : parser.atCharacter c with
  | true =>
      rw [hparser] at hat
      rw [← hat]
      exact hnext (sim.advance_of_atCharacter h hc hparser)
  | false =>
      rw [hparser] at hat
      rw [← hat]
      exact Reply.Related.failed kind h

end Simulation

/-!
# Thresholds

In two runs with different tables the loop over operations compares with
different numbers.  They cut the operators at the same place.
-/

/-- Two thresholds that the same operators reach. -/
structure Cuts (R : Parser -> Parser -> Prop) (least least' : Int32) : Prop where
  nonneg : 0 ≤ least
  nonneg' : 0 ≤ least'
  cut {parser other : Parser} : R parser other ->
    (parser.precedence < least <-> other.precedence < least')

theorem cuts_zero (sim : Simulation R) : Cuts R 0 0 where
  nonneg := Int32.le_refl 0
  nonneg' := Int32.le_refl 0
  cut := sim.operator

theorem toInt_add_one {p q : Int32} (h : p < q) :
    (p + 1).toInt = p.toInt + 1 := by
  have hlt := Int32.lt_iff_toInt_lt.mp h
  have hq := q.toInt_lt
  have hp := p.le_toInt
  rw [Int32.toInt_add]
  have hone : (1 : Int32).toInt = 1 := rfl
  rw [hone]
  apply Int.bmod_eq_of_le
  · omega
  · omega

theorem lt_add_one_iff {p q : Int32} (h : p < q) (r : Int32) :
    r < p + 1 <-> ¬ p < r := by
  rw [Int32.lt_iff_toInt_lt, toInt_add_one h, Int32.lt_iff_toInt_lt]
  omega

theorem nonneg_add_one {p q : Int32} (h : p < q) (hp : 0 ≤ p) : 0 ≤ p + 1 := by
  rw [Int32.le_iff_toInt_le] at hp ⊢
  rw [toInt_add_one h]
  have hzero : (0 : Int32).toInt = 0 := rfl
  omega

theorem nonneg_of_not_lt {p least : Int32} (hleast : 0 ≤ least)
    (h : ¬ p < least) : 0 ≤ p :=
  Int32.le_trans hleast (Int32.not_lt.mp h)

theorem cuts_add_one (sim : Simulation R) {parser other further another : Parser}
    {least least' : Int32} (hcuts : Cuts R least least') (h : R parser other)
    (hfurther : R further another) (hleast : ¬ parser.precedence < least)
    (htighter : parser.precedence < further.precedence) :
    Cuts R (parser.precedence + 1) (other.precedence + 1) where
  nonneg := nonneg_add_one htighter (nonneg_of_not_lt hcuts.nonneg hleast)
  nonneg' :=
    nonneg_add_one ((sim.order h hfurther).mp htighter)
      (nonneg_of_not_lt hcuts.nonneg' fun hlt => hleast ((hcuts.cut h).mpr hlt))
  cut {p q} hpq := by
    rw [lt_add_one_iff htighter,
      lt_add_one_iff ((sim.order h hfurther).mp htighter)]
    exact not_congr (sim.order h hpq)

theorem not_inert_of_threshold {parser : Parser} {least : Int32}
    (hleast : 0 ≤ least) (h : ¬ parser.precedence < least) : ¬ parser.Inert := by
  intro hinert
  have hnonneg := nonneg_of_not_lt hleast h
  exact absurd hinert.left (Int32.not_lt.mpr hnonneg)

/-!
# All constructs at once
-/

structure SimulatedAt (R : Parser -> Parser -> Prop) (depth : Nat) : Prop where
  expression {parser other : Parser} : R parser other ->
    Reply.Related R (expressionWithin depth parser) (expressionWithin depth other)
  primary {parser other : Parser} : R parser other ->
    Reply.Related R (primaryWithin depth parser) (primaryWithin depth other)
  grouping {parser other : Parser} : R parser.advance other.advance ->
    Reply.Related R (groupingWithin depth parser) (groupingWithin depth other)
  reference (name : String) {parser other : Parser} :
    R parser.advance other.advance ->
      Reply.Related R (referenceWithin name depth parser)
        (referenceWithin name depth other)
  arguments {parser other : Parser} : R parser other ->
    Reply.Related R (argumentsWithin depth parser) (argumentsWithin depth other)
  operations {least least' : Int32} (left : Expr) {parser other : Parser} :
    Cuts R least least' -> R parser other ->
      Reply.Related R (operationsWithin least left depth parser)
        (operationsWithin least' left depth other)

theorem primaryWithin_of_inert {parser : Parser} (h : parser.Inert)
    (depth : Nat) :
    primaryWithin (depth + 1) parser = parser.fail .unknownToken := by
  unfold primaryWithin
  rcases h with ⟨_, hend | ⟨c, hc, hopen, _⟩⟩
  · rw [hend]
  · rw [hc]
    split
    · contradiction
    · contradiction
    · next heq => exact absurd (Token.Kind.character.inj heq) hopen
    · rfl

theorem argumentsWithin_close {depth : Nat} {parser rest : Parser}
    {values : List Expr} (h : argumentsWithin depth parser = .parsed values rest) :
    rest.atCharacter ')' = true := by
  induction depth generalizing parser values with
  | zero => cases h
  | succ depth ih =>
      unfold argumentsWithin at h
      rcases andThen_eq_parsed h with ⟨argument, middle, _, htail⟩
      split at htail
      · next hclose =>
          injection htail with _ hrest
          rw [← hrest]
          exact hclose
      · rcases andThen_eq_parsed htail with ⟨token, after, _, hothers⟩
        rcases map_eq_parsed hothers with ⟨others, hothers, _⟩
        exact ih hothers

namespace SimulatedAt

variable {depth : Nat} (ih : SimulatedAt R depth) (sim : Simulation R)
  {parser other : Parser}
include ih sim

theorem expression_succ (h : R parser other) :
    Reply.Related R (expressionWithin (depth + 1) parser)
      (expressionWithin (depth + 1) other) := by
  rw [expressionWithin, expressionWithin]
  exact related_andThen (ih.primary h)
    fun left _ _ _ hrest => ih.operations left (cuts_zero sim) hrest

theorem primary_succ (h : R parser other) :
    Reply.Related R (primaryWithin (depth + 1) parser)
      (primaryWithin (depth + 1) other) := by
  cases sim.alike h with
  | inl hsame =>
      rw [primaryWithin, primaryWithin, ← hsame]
      split
      · next name hkind =>
          exact ih.reference name
            (sim.advance h (not_inert_of_kind hkind (by simp) (by simp)))
      · next value hkind =>
          exact Reply.Related.parsed _
            (sim.advance h (not_inert_of_kind hkind (by simp) (by simp)))
      · next hkind =>
          exact ih.grouping (sim.advance h (not_inert_delimiter rfl hkind))
      · exact Reply.Related.failed _ h
  | inr hboth =>
      rw [primaryWithin_of_inert hboth.left, primaryWithin_of_inert hboth.right]
      exact Reply.Related.failed _ h

theorem grouping_succ (h : R parser.advance other.advance) :
    Reply.Related R (groupingWithin (depth + 1) parser)
      (groupingWithin (depth + 1) other) := by
  rw [groupingWithin, groupingWithin]
  exact related_andThen (ih.expression h)
    fun content _ _ _ hrest =>
      sim.related_expect hrest rfl _ (Reply.Related.parsed content)

theorem reference_succ (name : String) (h : R parser.advance other.advance) :
    Reply.Related R (referenceWithin name (depth + 1) parser)
      (referenceWithin name (depth + 1) other) := by
  rw [referenceWithin, referenceWithin]
  dsimp only
  rw [← sim.atCharacter_eq h (c := '(') rfl]
  split
  · next hopen =>
      have hinside := sim.advance_of_atCharacter h rfl hopen
      rw [← sim.atCharacter_eq hinside (c := ')') rfl]
      split
      · next hclose =>
          exact Reply.Related.parsed _
            (sim.advance_of_atCharacter hinside rfl hclose)
      · apply related_andThen (ih.arguments hinside)
        intro values rest other hvalues hrest
        exact Reply.Related.parsed _
          (sim.advance_of_atCharacter hrest rfl (argumentsWithin_close hvalues))
  · exact Reply.Related.parsed _ h

theorem arguments_succ (h : R parser other) :
    Reply.Related R (argumentsWithin (depth + 1) parser)
      (argumentsWithin (depth + 1) other) := by
  rw [argumentsWithin, argumentsWithin]
  apply related_andThen (ih.expression h)
  intro argument rest other _ hrest
  rw [← sim.atCharacter_eq hrest (c := ')') rfl]
  split
  · exact Reply.Related.parsed _ hrest
  · apply sim.related_expect hrest rfl
    intro hafter
    exact related_map _ (ih.arguments hafter)

theorem operations_succ {least least' : Int32} (left : Expr)
    (hcuts : Cuts R least least') (h : R parser other) :
    Reply.Related R (operationsWithin least left (depth + 1) parser)
      (operationsWithin least' left (depth + 1) other) := by
  rw [operationsWithin, operationsWithin]
  by_cases hstop : parser.precedence < least
  · rw [if_pos hstop, if_pos ((hcuts.cut h).mp hstop)]
    exact Reply.Related.parsed left h
  · rw [if_neg hstop, if_neg (fun hlt => hstop ((hcuts.cut h).mpr hlt))]
    have hinert := not_inert_of_threshold hcuts.nonneg hstop
    have hadvance := sim.advance h hinert
    cases sim.alike h with
    | inr hboth => exact absurd hboth.left hinert
    | inl hsame =>
        rw [← hsame]
        split
        · apply related_andThen (ih.primary hadvance)
          intro right rest another _ hrest
          by_cases htighter : parser.precedence < rest.precedence
          · rw [if_pos htighter, if_pos ((sim.order h hrest).mp htighter)]
            apply related_andThen
              (ih.operations right (cuts_add_one sim hcuts h hrest hstop htighter)
                hrest)
            intro wider _ _ _ hwider
            exact ih.operations _ hcuts hwider
          · rw [if_neg htighter,
              if_neg (fun hlt => htighter ((sim.order h hrest).mpr hlt))]
            exact ih.operations _ hcuts hrest
        · exact Reply.Related.parsed left hadvance

end SimulatedAt

theorem simulatedAt (sim : Simulation R) (depth : Nat) : SimulatedAt R depth := by
  induction depth with
  | zero => constructor <;> intros <;> exact Reply.Related.tooDeep
  | succ depth ih =>
      constructor
      · exact ih.expression_succ sim
      · exact ih.primary_succ sim
      · exact ih.grouping_succ sim
      · intro name parser other h
        exact ih.reference_succ sim name h
      · exact ih.arguments_succ sim
      · intro least least' left parser other hcuts h
        exact ih.operations_succ sim left hcuts h

/-!
# Top-level units
-/

theorem parametersWithin_of_inert {parser : Parser} (h : parser.Inert)
    (depth : Nat) : parametersWithin (depth + 1) parser = .parsed [] parser := by
  unfold parametersWithin
  rcases h with ⟨_, hend | ⟨c, hc, _⟩⟩
  · rw [hend]
  · rw [hc]

theorem prototypeWithin_of_inert {parser : Parser} (h : parser.Inert)
    (depth : Nat) :
    prototypeWithin depth parser = parser.fail .expectedFunctionName := by
  unfold prototypeWithin
  rcases h with ⟨_, hend | ⟨c, hc, _⟩⟩
  · rw [hend]
  · rw [hc]

theorem topLevelWithin_of_inert {parser : Parser} (h : parser.Inert)
    (depth : Nat) :
    topLevelWithin depth parser =
      (bareExpressionWithin depth parser).map .expression := by
  unfold topLevelWithin
  rcases h with ⟨_, hend | ⟨c, hc, _⟩⟩
  · rw [hend]
  · rw [hc]

namespace Simulation

variable (sim : Simulation R)
include sim

theorem parametersWithin (depth : Nat) {parser other : Parser}
    (h : R parser other) :
    Reply.Related R (Parser.parametersWithin depth parser)
      (Parser.parametersWithin depth other) := by
  induction depth generalizing parser other with
  | zero => exact Reply.Related.tooDeep
  | succ depth ih =>
      cases sim.alike h with
      | inl hsame =>
          rw [Parser.parametersWithin, Parser.parametersWithin, ← hsame]
          split
          · next name hkind =>
              exact related_map _
                (ih (sim.advance h (not_inert_of_kind hkind (by simp) (by simp))))
          · exact Reply.Related.parsed [] h
      | inr hboth =>
          rw [parametersWithin_of_inert hboth.left,
            parametersWithin_of_inert hboth.right]
          exact Reply.Related.parsed [] h

theorem prototypeWithin (depth : Nat) {parser other : Parser}
    (h : R parser other) :
    Reply.Related R (Parser.prototypeWithin depth parser)
      (Parser.prototypeWithin depth other) := by
  cases sim.alike h with
  | inl hsame =>
      rw [Parser.prototypeWithin, Parser.prototypeWithin, ← hsame]
      split
      · next name hkind =>
          have hname := sim.advance h (not_inert_of_kind hkind (by simp) (by simp))
          dsimp only
          rw [← sim.atCharacter_eq hname (c := '(') rfl]
          split
          · next hopen =>
              apply related_andThen
                (sim.parametersWithin depth
                  (sim.advance_of_atCharacter hname rfl hopen))
              intro names rest another _ hrest
              exact sim.related_expect hrest rfl _ (Reply.Related.parsed _)
          · exact Reply.Related.failed _ hname
      · exact Reply.Related.failed _ h
  | inr hboth =>
      rw [prototypeWithin_of_inert hboth.left, prototypeWithin_of_inert hboth.right]
      exact Reply.Related.failed _ h

theorem definitionWithin (depth : Nat) {parser other : Parser}
    (h : R parser.advance other.advance) :
    Reply.Related R (Parser.definitionWithin depth parser)
      (Parser.definitionWithin depth other) := by
  apply related_andThen (sim.prototypeWithin depth h)
  intro prototype rest another _ hrest
  exact related_map _ ((simulatedAt sim depth).expression hrest)

theorem topLevelWithin (depth : Nat) {parser other : Parser}
    (h : R parser other) :
    Reply.Related R (Parser.topLevelWithin depth parser)
      (Parser.topLevelWithin depth other) := by
  have hbare := related_map (fun body => Definition.mk .anonymous body)
    ((simulatedAt sim depth).expression h)
  cases sim.alike h with
  | inl hsame =>
      rw [Parser.topLevelWithin, Parser.topLevelWithin, ← hsame]
      split
      · next hkind =>
          exact related_map _ (sim.definitionWithin depth
            (sim.advance h (not_inert_of_kind hkind (by simp) (by simp))))
      · next hkind =>
          exact related_map _ (sim.prototypeWithin depth
            (sim.advance h (not_inert_of_kind hkind (by simp) (by simp))))
      · exact related_map _ hbare
  | inr hboth =>
      rw [topLevelWithin_of_inert hboth.left, topLevelWithin_of_inert hboth.right]
      exact related_map _ hbare

theorem primary {parser other : Parser} (h : R parser other) :
    Result.Related R parser.primary other.primary :=
  related_settled steady_primary fun depth => (simulatedAt sim depth).primary h

theorem expression {parser other : Parser} (h : R parser other) :
    Result.Related R parser.expression other.expression :=
  related_settled steady_expression fun depth => (simulatedAt sim depth).expression h

theorem grouping {parser other : Parser} (h : R parser.advance other.advance) :
    Result.Related R parser.grouping other.grouping :=
  related_settled steady_grouping fun depth => (simulatedAt sim depth).grouping h

theorem prototype {parser other : Parser} (h : R parser other) :
    Result.Related R parser.prototype other.prototype :=
  related_settled steady_prototype fun depth => sim.prototypeWithin depth h

theorem definition {parser other : Parser} (h : R parser.advance other.advance) :
    Result.Related R parser.definition other.definition :=
  related_settled steady_definition fun depth => sim.definitionWithin depth h

theorem external {parser other : Parser} (h : R parser.advance other.advance) :
    Result.Related R parser.external other.external :=
  related_settled steady_external fun depth => sim.prototypeWithin depth h

theorem bareExpression {parser other : Parser} (h : R parser other) :
    Result.Related R parser.bareExpression other.bareExpression :=
  related_settled steady_bareExpression fun depth =>
    related_map _ ((simulatedAt sim depth).expression h)

theorem topLevel {parser other : Parser} (h : R parser other) :
    Result.Related R parser.topLevel other.topLevel :=
  related_settled steady_topLevel fun depth => sim.topLevelWithin depth h

end Simulation

/-!
# Parsers with one table

If both parsers have the same operators, like lookaheads have the same
precedence, so only the lookaheads and the step to the next one are left to show.
-/

theorem precedence_eq_of_alike {parser other : Parser}
    (hoperators : parser.operators = other.operators)
    (h : parser.current.kind = other.current.kind ∨ parser.Inert ∧ other.Inert) :
    parser.precedence = other.precedence := by
  cases h with
  | inl hsame => rw [precedence, precedence, hoperators, hsame]
  | inr hboth =>
      have hparser := Operators.precedence_of_neg hboth.left.left
      have hother := Operators.precedence_of_neg hboth.right.left
      rw [precedence, hparser, precedence, hother]

theorem simulation_of_operators
    (halike : forall {parser other}, R parser other ->
      parser.current.kind = other.current.kind ∨ parser.Inert ∧ other.Inert)
    (hadvance : forall {parser other}, R parser other -> ¬ parser.Inert ->
      R parser.advance other.advance)
    (hoperators : forall {parser other}, R parser other ->
      parser.operators = other.operators) :
    Simulation R where
  alike := halike
  advance := hadvance
  operator h := by
    rw [precedence_eq_of_alike (hoperators h) (halike h)]
  order h hfurther := by
    rw [precedence_eq_of_alike (hoperators h) (halike h),
      precedence_eq_of_alike (hoperators hfurther) (halike hfurther)]

/-!
# One parser

Related to itself, a parser shows what each construct keeps: the operators, the
file, and that an error describes the lookahead it was met at.
-/

def Reaches (parser rest : Parser) : Prop :=
  exists kinds, Reads parser kinds rest

theorem reaches_refl (parser : Parser) : parser.Reaches parser :=
  ⟨[], Reads.nothing parser⟩

theorem kind_ne_endOfInput_of_not_inert {parser : Parser} (h : ¬ parser.Inert) :
    parser.current.kind ≠ .endOfInput := by
  intro hend
  apply h
  constructor
  · rw [precedence, hend]
    exact of_decide_eq_true rfl
  · exact Or.inl hend

theorem reaches_simulation (start : Parser) :
    Simulation fun parser other => parser = other ∧ start.Reaches parser := by
  apply simulation_of_operators
  · intro parser other h
    exact Or.inl (by rw [h.left])
  · intro parser other h hinert
    rcases h with ⟨rfl, kinds, hreads⟩
    have hkind := kind_ne_endOfInput_of_not_inert hinert
    exact ⟨rfl, _, reads_append hreads (reads_one rfl hkind)⟩
  · intro parser other h
    rw [h.left]

theorem reaches_of_related {start : Parser} {result other : Result α}
    (h : Result.Related (fun parser other => parser = other ∧ start.Reaches parser)
      result other) : start.Reaches result.2 := by
  cases h with
  | ok value hrest => exact hrest.right
  | error kind hrest => exact hrest.right

theorem error_of_related {result : Result α} {other : Result α}
    (h : Result.Related R result other) {error : SyntaxError} {rest : Parser}
    (hresult : result = (.error error, rest)) :
    exists kind, error = rest.errorHere kind := by
  cases h with
  | ok value hrest => cases hresult
  | error kind hrest =>
      cases hresult
      exact ⟨kind, rfl⟩

theorem primary_reaches (parser : Parser) : parser.Reaches parser.primary.2 :=
  reaches_of_related
    ((reaches_simulation parser).primary ⟨rfl, reaches_refl parser⟩)

theorem expression_reaches (parser : Parser) :
    parser.Reaches parser.expression.2 :=
  reaches_of_related
    ((reaches_simulation parser).expression ⟨rfl, reaches_refl parser⟩)

theorem topLevel_reaches (parser : Parser) : parser.Reaches parser.topLevel.2 :=
  reaches_of_related
    ((reaches_simulation parser).topLevel ⟨rfl, reaches_refl parser⟩)

theorem reaches_of_topLevel {parser rest : Parser} {reply : Except SyntaxError TopLevel}
    (h : parser.topLevel = (reply, rest)) : parser.Reaches rest := by
  have hreaches := topLevel_reaches parser
  rw [h] at hreaches
  exact hreaches

/-- The error of a unit describes the lookahead that it leaves in place. -/
theorem topLevel_error {parser rest : Parser} {error : SyntaxError}
    (h : parser.topLevel = (.error error, rest)) :
    exists kind, error = rest.errorHere kind :=
  error_of_related ((reaches_simulation parser).topLevel ⟨rfl, reaches_refl parser⟩) h

theorem reaches_operators {parser rest : Parser} (h : parser.Reaches rest) :
    rest.operators = parser.operators := by
  rcases h with ⟨kinds, hreads⟩
  exact reads_operators hreads

theorem reaches_left {parser rest : Parser} (h : parser.Reaches rest) :
    rest.left ≤ parser.left := by
  rcases h with ⟨kinds, hreads⟩
  rw [reads_left hreads]
  exact Nat.le_add_left _ _

end Parser
end Kaleidoscope

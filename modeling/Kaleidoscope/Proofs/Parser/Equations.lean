import Kaleidoscope.Proofs.Parser.Steady

/-!
# Equations of the parser

Every construct satisfies a recursive equation in which no depth occurs.  The
equations hold because the replies of a construct stay the same from some depth
on, and the outcome is the reply that they stay at.
-/

namespace Kaleidoscope
namespace Parser

abbrev Result (α : Type) :=
  Except SyntaxError α × Parser

namespace Result

def followedBy (result : Result α) (next : α -> Parser -> Result β) : Result β :=
  match result with
  | (.ok value, rest) => next value rest
  | (.error error, rest) => (.error error, rest)

@[simp] theorem followedBy_ok (value : α) (rest : Parser)
    (next : α -> Parser -> Result β) :
    followedBy (.ok value, rest) next = next value rest := rfl

@[simp] theorem followedBy_error (error : SyntaxError) (rest : Parser)
    (next : α -> Parser -> Result β) :
    followedBy (.error error, rest) next = (.error error, rest) := rfl

theorem followedBy_eq_ok {result : Result α} {next : α -> Parser -> Result β}
    {value : β} {rest : Parser} (h : result.followedBy next = (.ok value, rest)) :
    exists first middle, result = (.ok first, middle) ∧
      next first middle = (.ok value, rest) := by
  rcases result with ⟨first | first, middle⟩
  · cases h
  · exact ⟨first, middle, rfl, h⟩

theorem followedBy_eq_error {result : Result α} {next : α -> Parser -> Result β}
    {error : SyntaxError} {rest : Parser}
    (h : result.followedBy next = (.error error, rest)) :
    result = (.error error, rest) ∨
      exists first middle, result = (.ok first, middle) ∧
        next first middle = (.error error, rest) := by
  rcases result with ⟨first | first, middle⟩
  · injection h with herror hrest
    injection herror with herror
    rw [herror, hrest]
    exact Or.inl rfl
  · exact Or.inr ⟨first, middle, rfl, h⟩

theorem followedBy_ok_eq_error {result : Result α} {f : α -> Parser -> β}
    {g : α -> Parser -> Parser} {error : SyntaxError} {rest : Parser}
    (h : (result.followedBy fun value middle => (.ok (f value middle), g value middle)) =
      (.error error, rest)) : result = (.error error, rest) := by
  rcases followedBy_eq_error h with hfirst | ⟨_, _, _, hlast⟩
  · exact hfirst
  · cases hlast

def reply : Result α -> Reply α
  | (.ok value, rest) => .parsed value rest
  | (.error error, rest) => .failed error rest

theorem reply_injective {x y : Result α} (h : x.reply = y.reply) : x = y := by
  rcases x with ⟨x | x, restx⟩
  · rcases y with ⟨y | y, resty⟩
    · injection h with herror hrest
      rw [herror, hrest]
    · cases h
  · rcases y with ⟨y | y, resty⟩
    · cases h
    · injection h with hvalue hrest
      rw [hvalue, hrest]

end Result

theorem settle_reply {reply : Reply α} (h : reply ≠ .tooDeep) (start : Parser) :
    Result.reply (reply.settle start) = reply := by
  cases reply with
  | parsed value rest => rfl
  | failed error rest => rfl
  | tooDeep => exact absurd rfl h

/-- From some depth on the replies are the given result. -/
def Tends (replies : Nat -> Reply α) (result : Result α) : Prop :=
  exists bound, forall depth, bound ≤ depth -> replies depth = result.reply

namespace Tends

theorem unique {replies : Nat -> Reply α} {x y : Result α}
    (hx : Tends replies x) (hy : Tends replies y) : x = y := by
  rcases hx with ⟨boundx, hx⟩
  rcases hy with ⟨boundy, hy⟩
  apply Result.reply_injective
  rw [← hx (max boundx boundy) (Nat.le_max_left _ _),
    ← hy (max boundx boundy) (Nat.le_max_right _ _)]

theorem const (result : Result α) : Tends (fun _ => result.reply) result :=
  ⟨0, fun _ _ => rfl⟩

theorem of_succ {replies : Nat -> Reply α} {result : Result α}
    (h : Tends (fun depth => replies (depth + 1)) result) : Tends replies result := by
  rcases h with ⟨bound, h⟩
  exists bound + 1
  intro depth hdepth
  cases depth with
  | zero => omega
  | succ depth => exact h depth (by omega)

theorem andThen {replies : Nat -> Reply α} {result : Result α}
    {f : α -> Nat -> Parser -> Reply β} {g : α -> Parser -> Result β}
    (h : Tends replies result)
    (hnext : forall value rest,
      Tends (fun depth => f value depth rest) (g value rest)) :
    Tends (fun depth => (replies depth).andThen fun value rest => f value depth rest)
      (result.followedBy g) := by
  rcases h with ⟨bound, h⟩
  rcases result with ⟨error | value, rest⟩
  · exists bound
    intro depth hdepth
    simp only [h depth hdepth]
    rfl
  · rcases hnext value rest with ⟨further, hnext⟩
    exists max bound further
    intro depth hdepth
    simp only [h depth (Nat.le_trans (Nat.le_max_left _ _) hdepth)]
    exact hnext depth (Nat.le_trans (Nat.le_max_right _ _) hdepth)

theorem map {replies : Nat -> Reply α} {result : Result α} (f : α -> β)
    (h : Tends replies result) :
    Tends (fun depth => (replies depth).map f)
      (result.followedBy fun value rest => (.ok (f value), rest)) :=
  andThen (f := fun value _ rest => .parsed (f value) rest) h
    fun value rest => const (.ok (f value), rest)

end Tends

theorem Steady.tends {parse : Nat -> Parser -> Reply α} (h : Steady parse)
    (parser : Parser) :
    Tends (fun depth => parse depth parser) (parser.settled parse) := by
  exists parser.depth
  intro depth hdepth
  have henough : parse depth parser ≠ .tooDeep :=
    h.enough (Nat.le_trans (left_le_depth parser) hdepth)
  rw [h.settled_eq depth henough, settle_reply henough]

/-!
# Expressions
-/

def failure (parser : Parser) (kind : SyntaxError.Kind) : Result α :=
  (.error (parser.errorHere kind), parser)

def expected (parser : Parser) (c : Char) (kind : SyntaxError.Kind) (value : α) :
    Result α :=
  if parser.atCharacter c then
    (.ok value, parser.advance)
  else
    parser.failure kind

def arguments (parser : Parser) : Result (List Expr) :=
  parser.settled argumentsWithin

def parameters (parser : Parser) : Result (List String) :=
  parser.settled parametersWithin

theorem tends_expected (parser : Parser) (c : Char) (kind : SyntaxError.Kind)
    (value : α) :
    Tends (fun _ => (parser.expect c kind).map fun _ => value)
      (parser.expected c kind value) := by
  unfold expect expected
  cases parser.atCharacter c with
  | true => exact Tends.const (.ok value, parser.advance)
  | false => exact Tends.const (parser.failure kind)

theorem expression_eq (parser : Parser) :
    parser.expression =
      Result.followedBy parser.primary fun left rest => rest.operations 0 left := by
  apply Tends.unique (steady_expression.tends parser)
  apply Tends.of_succ
  exact (steady_primary.tends parser).andThen
    fun left rest => (steady_operations 0 left).tends rest

theorem primary_eq (parser : Parser) :
    parser.primary =
      match parser.current.kind with
      | .identifier name => parser.reference name
      | .number value => (.ok (.number value), parser.advance)
      | .character '(' => parser.grouping
      | _ => parser.failure .unknownToken := by
  apply Tends.unique (steady_primary.tends parser)
  apply Tends.of_succ
  simp only [primaryWithin]
  cases hkind : parser.current.kind with
  | identifier name => exact (steady_reference name).tends parser
  | number value => exact Tends.const (.ok (Expr.number value), parser.advance)
  | character c =>
      by_cases hc : c = '('
      · subst hc
        exact steady_grouping.tends parser
      · simp only [Token.Kind.character.injEq, hc, imp_self]
        exact Tends.const (parser.failure .unknownToken)
  | endOfInput => exact Tends.const (parser.failure .unknownToken)
  | define => exact Tends.const (parser.failure .unknownToken)
  | external => exact Tends.const (parser.failure .unknownToken)

theorem grouping_eq (parser : Parser) :
    parser.grouping =
      Result.followedBy parser.advance.expression fun content rest =>
        rest.expected ')' .expectedCloseParen content := by
  apply Tends.unique (steady_grouping.tends parser)
  apply Tends.of_succ
  exact (steady_expression.tends parser.advance).andThen
    fun content rest => tends_expected rest ')' .expectedCloseParen content

theorem reference_eq (parser : Parser) (name : String) :
    parser.reference name =
      if parser.advance.atCharacter '(' then
        if parser.advance.advance.atCharacter ')' then
          (.ok (.call name []), parser.advance.advance.advance)
        else
          Result.followedBy parser.advance.advance.arguments fun values rest =>
            (.ok (.call name values), rest.advance)
      else
        (.ok (.var name), parser.advance) := by
  apply Tends.unique ((steady_reference name).tends parser)
  apply Tends.of_succ
  simp only [referenceWithin]
  cases parser.advance.atCharacter '(' with
  | true =>
      cases parser.advance.advance.atCharacter ')' with
      | true =>
          exact Tends.const
            (.ok (Expr.call name []), parser.advance.advance.advance)
      | false =>
          exact (steady_arguments.tends parser.advance.advance).andThen
            (f := fun values _ rest => .parsed (Expr.call name values) rest.advance)
            (g := fun values rest =>
              (.ok (Expr.call name values), rest.advance))
            fun values rest =>
              Tends.const (.ok (Expr.call name values), rest.advance)
  | false => exact Tends.const (.ok (Expr.var name), parser.advance)

theorem arguments_eq (parser : Parser) :
    parser.arguments =
      Result.followedBy parser.expression fun argument rest =>
        if rest.atCharacter ')' then
          (.ok [argument], rest)
        else if rest.atCharacter ',' then
          Result.followedBy rest.advance.arguments fun others rest =>
            (.ok (argument :: others), rest)
        else
          rest.failure .expectedArgumentDelimiter := by
  apply Tends.unique (steady_arguments.tends parser)
  apply Tends.of_succ
  apply (steady_expression.tends parser).andThen
    (f := fun argument depth rest =>
      if rest.atCharacter ')' then
        .parsed [argument] rest
      else
        (rest.expect ',' .expectedArgumentDelimiter).andThen fun _ rest =>
          (argumentsWithin depth rest).map fun others => argument :: others)
  intro argument rest
  cases rest.atCharacter ')' with
  | true => exact Tends.const (.ok [argument], rest)
  | false =>
      simp only [Bool.false_eq_true, ↓reduceIte, expect]
      cases rest.atCharacter ',' with
      | true => exact (steady_arguments.tends rest.advance).map _
      | false => exact Tends.const (rest.failure .expectedArgumentDelimiter)

theorem operations_eq (parser : Parser) (least : Int32) (left : Expr) :
    parser.operations least left =
      if parser.precedence < least then
        (.ok left, parser)
      else
        match parser.current.kind with
        | .character op =>
            Result.followedBy parser.advance.primary fun right rest =>
              if parser.precedence < rest.precedence then
                Result.followedBy (rest.operations (parser.precedence + 1) right)
                  fun right rest => rest.operations least (.binary op left right)
              else
                rest.operations least (.binary op left right)
        | _ => (.ok left, parser.advance) := by
  apply Tends.unique ((steady_operations least left).tends parser)
  apply Tends.of_succ
  simp only [operationsWithin]
  by_cases hstop : parser.precedence < least
  · simp only [if_pos hstop]
    exact Tends.const (.ok left, parser)
  · simp only [if_neg hstop]
    cases hkind : parser.current.kind with
    | character op =>
        apply (steady_primary.tends parser.advance).andThen
          (f := fun right depth rest =>
            if parser.precedence < rest.precedence then
              (operationsWithin (parser.precedence + 1) right depth rest).andThen
                fun right rest =>
                  operationsWithin least (.binary op left right) depth rest
            else
              operationsWithin least (.binary op left right) depth rest)
        intro right rest
        by_cases htighter : parser.precedence < rest.precedence
        · simp only [if_pos htighter]
          exact ((steady_operations _ right).tends rest).andThen
            fun right rest => (steady_operations least _).tends rest
        · simp only [if_neg htighter]
          exact (steady_operations least _).tends rest
    | identifier name => exact Tends.const (.ok left, parser.advance)
    | number value => exact Tends.const (.ok left, parser.advance)
    | endOfInput => exact Tends.const (.ok left, parser.advance)
    | define => exact Tends.const (.ok left, parser.advance)
    | external => exact Tends.const (.ok left, parser.advance)

/-!
# Top-level units
-/

theorem parameters_eq (parser : Parser) :
    parser.parameters =
      match parser.current.kind with
      | .identifier name =>
          Result.followedBy parser.advance.parameters fun others rest =>
            (.ok (name :: others), rest)
      | _ => (.ok [], parser) := by
  apply Tends.unique (steady_parameters.tends parser)
  apply Tends.of_succ
  simp only [parametersWithin]
  cases hkind : parser.current.kind with
  | identifier name => exact (steady_parameters.tends parser.advance).map _
  | number value => exact Tends.const (.ok [], parser)
  | character c => exact Tends.const (.ok [], parser)
  | endOfInput => exact Tends.const (.ok [], parser)
  | define => exact Tends.const (.ok [], parser)
  | external => exact Tends.const (.ok [], parser)

theorem prototype_eq (parser : Parser) :
    parser.prototype =
      match parser.current.kind with
      | .identifier name =>
          if parser.advance.atCharacter '(' then
            Result.followedBy parser.advance.advance.parameters fun names rest =>
              rest.expected ')' .expectedPrototypeCloseParen ⟨name, names⟩
          else
            parser.advance.failure .expectedPrototypeOpenParen
      | _ => parser.failure .expectedFunctionName := by
  apply Tends.unique (steady_prototype.tends parser)
  simp only [prototypeWithin]
  cases hkind : parser.current.kind with
  | identifier name =>
      cases parser.advance.atCharacter '(' with
      | true =>
          exact (steady_parameters.tends parser.advance.advance).andThen
            fun names rest =>
              tends_expected rest ')' .expectedPrototypeCloseParen
                (Prototype.mk name names)
      | false =>
          exact Tends.const (parser.advance.failure .expectedPrototypeOpenParen)
  | number value => exact Tends.const (parser.failure .expectedFunctionName)
  | character c => exact Tends.const (parser.failure .expectedFunctionName)
  | endOfInput => exact Tends.const (parser.failure .expectedFunctionName)
  | define => exact Tends.const (parser.failure .expectedFunctionName)
  | external => exact Tends.const (parser.failure .expectedFunctionName)

theorem definition_eq (parser : Parser) :
    parser.definition =
      Result.followedBy parser.advance.prototype fun prototype rest =>
        Result.followedBy rest.expression fun body rest =>
          (.ok ⟨prototype, body⟩, rest) := by
  apply Tends.unique (steady_definition.tends parser)
  exact (steady_prototype.tends parser.advance).andThen
    fun prototype rest => (steady_expression.tends rest).map _

theorem external_eq (parser : Parser) :
    parser.external = parser.advance.prototype := by
  apply Tends.unique (steady_external.tends parser)
  exact steady_prototype.tends parser.advance

theorem bareExpression_eq (parser : Parser) :
    parser.bareExpression =
      Result.followedBy parser.expression fun body rest =>
        (.ok ⟨.anonymous, body⟩, rest) := by
  apply Tends.unique (steady_bareExpression.tends parser)
  exact (steady_expression.tends parser).map _

theorem topLevel_eq (parser : Parser) :
    parser.topLevel =
      match parser.current.kind with
      | .define =>
          Result.followedBy parser.definition fun content rest =>
            (.ok (.definition content), rest)
      | .external =>
          Result.followedBy parser.external fun prototype rest =>
            (.ok (.external prototype), rest)
      | _ =>
          Result.followedBy parser.bareExpression fun content rest =>
            (.ok (.expression content), rest) := by
  apply Tends.unique (steady_topLevel.tends parser)
  simp only [topLevelWithin]
  cases hkind : parser.current.kind with
  | define => exact (steady_definition.tends parser).map _
  | external => exact (steady_external.tends parser).map _
  | identifier name => exact (steady_bareExpression.tends parser).map _
  | number value => exact (steady_bareExpression.tends parser).map _
  | character c => exact (steady_bareExpression.tends parser).map _
  | endOfInput => exact (steady_bareExpression.tends parser).map _

end Parser
end Kaleidoscope

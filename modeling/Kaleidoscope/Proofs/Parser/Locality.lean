import Kaleidoscope.Proofs.Parser.Equations
import Kaleidoscope.Proofs.Parser.Lookahead
import Kaleidoscope.Proofs.Scanner.Sharing

/-!
# Replies to shared characters

A parser asks its scanner for a token only where it uses the lookahead.  So over
two sources that begin alike a construct replies alike, as long as it does not
go past the characters that they share.
-/

namespace Kaleidoscope
namespace Parser

def Past (count : Nat) (parser : Parser) : Prop :=
  parser.scanner.cursor.Past count

structure Shares (count : Nat) (parser other : Parser) : Prop where
  current : parser.current = other.current
  operators : parser.operators = other.operators
  scanner : parser.scanner.Shares count other.scanner

theorem advance_past {count : Nat} (parser : Parser) (h : parser.Past count) :
    parser.advance.Past count :=
  Scanner.next_past h

theorem advance_shares {count : Nat} {parser other : Parser}
    (h : parser.Shares count other) :
    parser.advance.Past count ∨ parser.advance.Shares count other.advance :=
  (Scanner.next_shares h.scanner).imp_right fun hnext =>
    ⟨hnext.left, h.operators, hnext.right⟩

/-- The replies are the same, or the first parser has gone past what is shared. -/
inductive Reply.Follows (count : Nat) : Reply α -> Reply α -> Prop where
  | parsed (value : α) {rest other : Parser} : rest.Shares count other ->
      Follows count (.parsed value rest) (.parsed value other)
  | failed (error : SyntaxError) {rest other : Parser} : rest.Shares count other ->
      Follows count (.failed error rest) (.failed error other)
  | tooDeep : Follows count .tooDeep .tooDeep
  | past {reply other : Reply α} : reply.Keeps (Past count) -> Follows count reply other

/-- What a construct replies depends on the tokens that it uses and on the lookahead. -/
structure Local (parse : Parser -> Reply α) : Prop where
  past {count : Nat} {parser : Parser} :
    parser.Past count -> (parse parser).Keeps (Past count)
  shares {count : Nat} {parser other : Parser} : parser.Shares count other ->
    (parse parser).Follows count (parse other)

/-!
# Composition
-/

theorem local_tooDeep : Local fun _ => (.tooDeep : Reply α) where
  past _ := trivial
  shares _ := Reply.Follows.tooDeep

theorem local_parsed (value : α) : Local (.parsed value) where
  past h := h
  shares h := Reply.Follows.parsed value h

theorem local_fail (kind : SyntaxError.Kind) :
    Local fun parser => (parser.fail kind : Reply α) where
  past h := keeps_fail h kind
  shares {count parser other} h := by
    have herror : parser.errorHere kind = other.errorHere kind := by
      rw [errorHere, errorHere, position, position, h.current]
    rw [fail, fail, herror]
    exact Reply.Follows.failed _ h

theorem local_advance {parse : Parser -> Reply α} (hparse : Local parse) :
    Local fun parser => parse parser.advance where
  past h := hparse.past (advance_past _ h)
  shares h := by
    rcases advance_shares h with hpast | hshares
    · exact Reply.Follows.past (hparse.past hpast)
    · exact hparse.shares hshares

theorem local_andThen {parse : Parser -> Reply α} {next : α -> Parser -> Reply β}
    (hparse : Local parse) (hnext : forall value, Local (next value)) :
    Local fun parser => (parse parser).andThen next where
  past h := keeps_andThen (hparse.past h) fun value _ hrest => (hnext value).past hrest
  shares {count parser other} h := by
    have hfollows := hparse.shares h
    generalize parse parser = reply at hfollows
    generalize parse other = reply' at hfollows
    cases hfollows with
    | parsed value hrest => exact (hnext value).shares hrest
    | failed error hrest => exact Reply.Follows.failed error hrest
    | tooDeep => exact Reply.Follows.tooDeep
    | past hkeeps =>
        exact Reply.Follows.past
          (keeps_andThen hkeeps fun value _ hrest => (hnext value).past hrest)

theorem local_map {parse : Parser -> Reply α} (f : α -> β) (hparse : Local parse) :
    Local fun parser => (parse parser).map f :=
  local_andThen hparse fun value => local_parsed (f value)

theorem local_of_current {parse : Parser -> Reply α}
    (h : forall token operators, exists chosen : Parser -> Reply α, Local chosen ∧
      forall parser : Parser, parser.current = token -> parser.operators = operators ->
        parse parser = chosen parser) : Local parse where
  past {count parser} hpast := by
    rcases h parser.current parser.operators with ⟨chosen, hchosen, hsame⟩
    rw [hsame parser rfl rfl]
    exact hchosen.past hpast
  shares {count parser other} hshares := by
    rcases h parser.current parser.operators with ⟨chosen, hchosen, hsame⟩
    rw [hsame parser rfl rfl, hsame other hshares.current.symm hshares.operators.symm]
    exact hchosen.shares hshares

theorem local_of_eq {parse chosen : Parser -> Reply α}
    (h : forall parser, parse parser = chosen parser) (hchosen : Local chosen) :
    Local parse :=
  local_of_current fun _ _ => ⟨chosen, hchosen, fun parser _ _ => h parser⟩

theorem local_atCharacter (c : Char) {found missing : Parser -> Reply α}
    (hfound : Local found) (hmissing : Local missing) :
    Local fun parser => if parser.atCharacter c then found parser else missing parser := by
  apply local_of_current
  intro token operators
  cases hat : token.isCharacter c with
  | true =>
      refine ⟨found, hfound, fun parser hcurrent _ => if_pos ?_⟩
      rw [atCharacter, hcurrent, hat]
  | false =>
      refine ⟨missing, hmissing, fun parser hcurrent _ => if_neg ?_⟩
      rw [atCharacter, hcurrent, hat]
      exact Bool.false_ne_true

theorem local_expect (c : Char) (kind : SyntaxError.Kind) :
    Local fun parser => parser.expect c kind := by
  apply local_atCharacter c
  · apply local_of_current
    intro token operators
    exact ⟨_, local_advance (local_parsed token), fun parser hcurrent _ => by rw [hcurrent]⟩
  · exact local_fail kind

/-!
# Expressions
-/

structure LocalAt (depth : Nat) : Prop where
  expression : Local (expressionWithin depth)
  primary : Local (primaryWithin depth)
  grouping : Local (groupingWithin depth)
  reference (name : String) : Local (referenceWithin name depth)
  arguments : Local (argumentsWithin depth)
  operations (least : Int32) (left : Expr) : Local (operationsWithin least left depth)

namespace LocalAt

variable {depth : Nat} (ih : LocalAt depth)
include ih

theorem expression_succ : Local (expressionWithin (depth + 1)) := by
  apply local_of_eq (fun parser => by rw [expressionWithin])
  exact local_andThen ih.primary fun left => ih.operations 0 left

theorem primary_succ : Local (primaryWithin (depth + 1)) := by
  apply local_of_current
  intro token operators
  cases hkind : token.kind with
  | identifier name =>
      exact ⟨_, ih.reference name,
        fun parser hcurrent _ => by rw [primaryWithin, hcurrent, hkind]⟩
  | number value =>
      exact ⟨_, local_advance (local_parsed _),
        fun parser hcurrent _ => by rw [primaryWithin, hcurrent, hkind]⟩
  | character c =>
      by_cases hopen : c = '('
      · refine ⟨_, ih.grouping, fun parser hcurrent _ => ?_⟩
        rw [primaryWithin, hcurrent, hkind, hopen]
        rfl
      · refine ⟨_, local_fail .unknownToken, fun parser hcurrent _ => ?_⟩
        rw [primaryWithin, hcurrent, hkind]
        split
        · contradiction
        · contradiction
        · next hsame => exact absurd (Token.Kind.character.inj hsame) hopen
        · rfl
  | endOfInput | define | external =>
      exact ⟨_, local_fail .unknownToken,
        fun parser hcurrent _ => by rw [primaryWithin, hcurrent, hkind]⟩

theorem grouping_succ : Local (groupingWithin (depth + 1)) := by
  apply local_of_eq (fun parser => by rw [groupingWithin])
  apply local_andThen (local_advance ih.expression)
  intro content
  exact local_map _ (local_expect ')' .expectedCloseParen)

theorem reference_succ (name : String) : Local (referenceWithin name (depth + 1)) := by
  have hcall (arguments : List Expr) :=
    local_advance (local_parsed (Expr.call name arguments))
  have hinside := local_atCharacter ')' (hcall []) (local_andThen ih.arguments hcall)
  have hname := local_atCharacter '(' (local_advance hinside) (local_parsed (.var name))
  exact local_of_eq (fun parser => by rw [referenceWithin]) (local_advance hname)

theorem arguments_succ : Local (argumentsWithin (depth + 1)) := by
  apply local_of_eq (fun parser => by rw [argumentsWithin])
  apply local_andThen ih.expression
  intro argument
  have hothers := local_map (fun others => argument :: others) ih.arguments
  exact local_atCharacter ')' (local_parsed [argument])
    (local_andThen (local_expect ',' .expectedArgumentDelimiter) fun _ => hothers)

theorem operand_local (least level : Int32) (op : Char) (left right : Expr) :
    Local fun rest =>
      if level < rest.precedence then
        (operationsWithin (level + 1) right depth rest).andThen fun right rest =>
          operationsWithin least (.binary op left right) depth rest
      else
        operationsWithin least (.binary op left right) depth rest := by
  apply local_of_current
  intro token operators
  by_cases htighter : level < operators.precedence token.kind
  · refine ⟨_, local_andThen (ih.operations (level + 1) right) fun right =>
      ih.operations least (.binary op left right), fun rest hcurrent hoperators => ?_⟩
    rw [precedence, hcurrent, hoperators, if_pos htighter]
  · refine ⟨_, ih.operations least (.binary op left right),
      fun rest hcurrent hoperators => ?_⟩
    rw [precedence, hcurrent, hoperators, if_neg htighter]

theorem operations_succ (least : Int32) (left : Expr) :
    Local (operationsWithin least left (depth + 1)) := by
  apply local_of_current
  intro token operators
  by_cases hstop : operators.precedence token.kind < least
  · refine ⟨_, local_parsed left, fun parser hcurrent hoperators => ?_⟩
    rw [operationsWithin, precedence, hcurrent, hoperators, if_pos hstop]
  · cases hkind : token.kind with
    | character op =>
        refine ⟨_, local_andThen (local_advance ih.primary) fun right =>
          ih.operand_local least (operators.precedence token.kind) op left right,
          fun parser hcurrent hoperators => ?_⟩
        rw [operationsWithin, precedence, hcurrent, hoperators, if_neg hstop, hkind]
    | endOfInput | define | external | identifier | number =>
        refine ⟨_, local_advance (local_parsed left), fun parser hcurrent hoperators => ?_⟩
        rw [operationsWithin, precedence, hcurrent, hoperators, if_neg hstop, hkind]

end LocalAt

theorem localAt (depth : Nat) : LocalAt depth := by
  induction depth with
  | zero =>
      constructor
      · exact local_tooDeep
      · exact local_tooDeep
      · exact local_tooDeep
      · exact fun _ => local_tooDeep
      · exact local_tooDeep
      · exact fun _ _ => local_tooDeep
  | succ depth ih =>
      constructor
      · exact ih.expression_succ
      · exact ih.primary_succ
      · exact ih.grouping_succ
      · exact ih.reference_succ
      · exact ih.arguments_succ
      · exact ih.operations_succ

/-!
# Top-level units
-/

theorem parametersWithin_local (depth : Nat) : Local (parametersWithin depth) := by
  induction depth with
  | zero => exact local_tooDeep
  | succ depth ih =>
      apply local_of_current
      intro token operators
      cases hkind : token.kind with
      | identifier name =>
          refine ⟨_, local_advance (local_map (fun others => name :: others) ih),
            fun parser hcurrent _ => ?_⟩
          rw [parametersWithin, hcurrent, hkind]
      | endOfInput | define | external | number | character =>
          refine ⟨_, local_parsed [], fun parser hcurrent _ => ?_⟩
          rw [parametersWithin, hcurrent, hkind]

theorem prototypeWithin_local (depth : Nat) : Local (prototypeWithin depth) := by
  apply local_of_current
  intro token operators
  cases hkind : token.kind with
  | identifier name =>
      have hclose (parameters : List String) :=
        local_map (fun _ => Prototype.mk name parameters)
          (local_expect ')' .expectedPrototypeCloseParen)
      have hopen := local_atCharacter '('
        (local_advance (local_andThen (parametersWithin_local depth) hclose))
        (local_fail .expectedPrototypeOpenParen)
      refine ⟨_, local_advance hopen, fun parser hcurrent _ => ?_⟩
      rw [prototypeWithin, hcurrent, hkind]
  | endOfInput | define | external | number | character =>
      refine ⟨_, local_fail .expectedFunctionName, fun parser hcurrent _ => ?_⟩
      rw [prototypeWithin, hcurrent, hkind]

theorem topLevelWithin_local (depth : Nat) : Local (topLevelWithin depth) := by
  have hexpression := (localAt depth).expression
  have hprototype := prototypeWithin_local depth
  have hdefinition := local_andThen (local_advance hprototype) fun prototype =>
    local_map (fun body => Definition.mk prototype body) hexpression
  have hbare := local_map (fun body => Definition.mk .anonymous body) hexpression
  apply local_of_current
  intro token operators
  cases hkind : token.kind with
  | define =>
      refine ⟨_, local_map .definition hdefinition, fun parser hcurrent _ => ?_⟩
      rw [topLevelWithin, hcurrent, hkind]
      rfl
  | external =>
      refine ⟨_, local_map .external (local_advance hprototype), fun parser hcurrent _ => ?_⟩
      rw [topLevelWithin, hcurrent, hkind]
      rfl
  | endOfInput | identifier | number | character =>
      refine ⟨_, local_map .expression hbare, fun parser hcurrent _ => ?_⟩
      rw [topLevelWithin, hcurrent, hkind]
      rfl

theorem local_settled {parse : Nat -> Parser -> Reply α} (hsteady : Steady parse)
    (h : forall depth, Local (parse depth)) :
    Local fun parser => Result.reply (parser.settled parse) where
  past {count parser} hpast := by
    rcases hsteady.tends parser with ⟨bound, hbound⟩
    rw [← hbound bound (Nat.le_refl bound)]
    exact (h bound).past hpast
  shares {count parser other} hshares := by
    rcases hsteady.tends parser with ⟨bound, hbound⟩
    rcases hsteady.tends other with ⟨bound', hbound'⟩
    rw [← hbound _ (Nat.le_max_left bound bound'),
      ← hbound' _ (Nat.le_max_right bound bound')]
    exact (h (max bound bound')).shares hshares

theorem topLevel_local : Local fun parser => Result.reply parser.topLevel :=
  local_settled steady_topLevel topLevelWithin_local

section

variable {count : Nat} {parser other rest : Parser}

theorem start_shares {scanner further : Scanner} (h : scanner.Shares count further) :
    (start scanner).Past count ∨ (start scanner).Shares count (start further) :=
  (Scanner.next_shares h).imp_right fun hnext => ⟨hnext.left, rfl, hnext.right⟩

theorem past_of_keeps {result : Except SyntaxError α}
    (h : Reply.Keeps (Past count) (Result.reply (result, rest))) : rest.Past count := by
  cases result with
  | ok value => exact h
  | error error => exact h.left

theorem topLevel_past {result : Except SyntaxError TopLevel} (h : parser.Past count)
    (htopLevel : parser.topLevel = (result, rest)) : rest.Past count := by
  have hkeeps := topLevel_local.past h
  rw [htopLevel] at hkeeps
  exact past_of_keeps hkeeps

/-- Over what is shared the unit is the same, and so is the error in its place. -/
theorem topLevel_shares {result : Except SyntaxError TopLevel}
    (h : parser.Shares count other) (htopLevel : parser.topLevel = (result, rest)) :
    rest.Past count ∨
      exists rest', other.topLevel = (result, rest') ∧ rest.Shares count rest' := by
  have hfollows := topLevel_local.shares h
  rw [htopLevel] at hfollows
  generalize hparser : Result.reply (result, rest) = reply at hfollows
  generalize hother : Result.reply other.topLevel = reply' at hfollows
  cases hfollows with
  | @parsed value _ rest' hshares =>
      cases Result.reply_injective (y := (.ok value, _)) hparser
      have hsame := Result.reply_injective (y := (.ok value, rest')) hother
      exact Or.inr ⟨rest', hsame, hshares⟩
  | @failed error _ rest' hshares =>
      cases Result.reply_injective (y := (.error error, _)) hparser
      have hsame := Result.reply_injective (y := (.error error, rest')) hother
      exact Or.inr ⟨rest', hsame, hshares⟩
  | tooDeep =>
      cases result with
      | ok unit => cases hparser
      | error error => cases hparser
  | past hkeeps =>
      rw [← hparser] at hkeeps
      exact Or.inl (past_of_keeps hkeeps)

end

end Parser
end Kaleidoscope

import Kaleidoscope.Proofs.Parser.Simulation

/-!
# Progress and termination

A construct that is read has used tokens, and at the end of the input nothing is
read and nothing is used.  Wherever a construct begins, with any table of operators,
it comes to an end within a depth that is linear in the tokens left.
-/

namespace Kaleidoscope
namespace Parser

/-!
# Progress
-/

/-- At least one token has been used, and the end of the input is none of them. -/
def Uses (parser rest : Parser) : Prop :=
  exists kinds, kinds ≠ [] ∧ Reads parser kinds rest

section

variable {parser rest : Parser}

theorem uses_of_left_lt (h : parser.Reaches rest) (hless : rest.left < parser.left) :
    parser.Uses rest := by
  rcases h with ⟨kinds, hreads⟩
  refine ⟨kinds, ?_, hreads⟩
  intro hnil
  rw [reads_left hreads, hnil, List.length_nil, Nat.zero_add] at hless
  exact Nat.lt_irrefl _ hless

theorem primary_uses {value : Expr} (h : parser.primary = (.ok value, rest)) :
    parser.Uses rest := by
  rcases gives_of_settled h with ⟨depth, hprimary⟩
  have hreaches := primary_reaches parser
  rw [h] at hreaches
  exact uses_of_left_lt hreaches ((progress depth).primary hprimary)

theorem expression_uses {value : Expr} (h : parser.expression = (.ok value, rest)) :
    parser.Uses rest := by
  rcases gives_of_settled h with ⟨depth, hexpression⟩
  have hreaches := expression_reaches parser
  rw [h] at hreaches
  exact uses_of_left_lt hreaches ((progress depth).expression hexpression)

theorem topLevel_left_lt {unit : TopLevel} (h : parser.topLevel = (.ok unit, rest)) :
    rest.left < parser.left := by
  rcases gives_of_settled h with ⟨depth, htopLevel⟩
  exact topLevelWithin_left htopLevel

theorem topLevel_uses {unit : TopLevel} (h : parser.topLevel = (.ok unit, rest)) :
    parser.Uses rest :=
  uses_of_left_lt (reaches_of_topLevel h) (topLevel_left_lt h)

end

/-!
# At the end of the input
-/

section

variable {parser : Parser} (h : parser.current.kind = .endOfInput)
include h

theorem primary_at_end : parser.primary = parser.failure .unknownToken := by
  rw [primary_eq, h]

theorem expression_at_end : parser.expression = parser.failure .unknownToken := by
  rw [expression_eq, primary_at_end h]
  exact Result.followedBy_error _ _ _

theorem topLevel_at_end : parser.topLevel = parser.failure .unknownToken := by
  rw [topLevel_eq, h]
  dsimp only
  rw [bareExpression_eq, expression_at_end h]
  rfl

end

/-!
# Termination
-/

/-- The constructs that begin at a parser make progress and come to an end. -/
structure Terminates (parser : Parser) : Prop where
  primary_uses {value : Expr} {rest : Parser} :
    parser.primary = (.ok value, rest) -> parser.Uses rest
  expression_uses {value : Expr} {rest : Parser} :
    parser.expression = (.ok value, rest) -> parser.Uses rest
  topLevel_uses {unit : TopLevel} {rest : Parser} :
    parser.topLevel = (.ok unit, rest) -> parser.Uses rest
  at_end :
    parser.current.kind = .endOfInput ->
      parser.primary = parser.failure .unknownToken ∧
      parser.expression = parser.failure .unknownToken ∧
      parser.topLevel = parser.failure .unknownToken
  bounded (construct : Construct) {calls passes : Nat} {last : Call} :
    Call.Leads ⟨construct, parser⟩ calls passes last ->
      calls + passes < 4 * parser.left + 5
  enough (construct : Construct) {depth : Nat} :
    (forall calls passes last, Call.Leads ⟨construct, parser⟩ calls passes last ->
      calls + passes < depth) -> construct.within depth parser ≠ .tooDeep
  finishes (construct : Construct) {depth : Nat} :
    4 * parser.left + 5 ≤ depth -> construct.within depth parser ≠ .tooDeep
  same (construct : Construct) {depth : Nat} :
    4 * parser.left + 5 ≤ depth ->
      construct.within depth parser = construct.within (4 * parser.left + 5) parser
  outcome (construct : Construct) :
    parser.settled construct.within =
      (construct.within (4 * parser.left + 5) parser).settle parser

theorem constructs_terminate (parser : Parser) : parser.Terminates where
  primary_uses := primary_uses
  expression_uses := expression_uses
  topLevel_uses := topLevel_uses
  at_end h := ⟨primary_at_end h, expression_at_end h, topLevel_at_end h⟩
  bounded construct _ _ _ := Call.leads_bounded
  enough construct _ := Call.finishes_of_leads
  finishes construct _ := Call.finishes_of_left ⟨construct, parser⟩
  same construct depth h := by
    have hfinishes : construct.within (4 * parser.left + 5) parser ≠ .tooDeep :=
      Call.finishes_of_left ⟨construct, parser⟩ (Nat.le_refl _)
    rcases (steady construct).kept_le h parser with hdeep | hsame
    · exact absurd hdeep hfinishes
    · exact hsame
  outcome construct :=
    (steady construct).settled_eq _
      (Call.finishes_of_left ⟨construct, parser⟩ (Nat.le_refl _))

end Parser
end Kaleidoscope

import Kaleidoscope.Proofs.Parser.Calls

/-!
# Steady constructs

From a depth on that is linear in the tokens left, a construct gives one reply and
that is not too deep.  So the outcome of a parser is the reply at any depth that is
enough.
-/

namespace Kaleidoscope
namespace Parser

/-- A construct whose outcome does not depend on the depth once that is enough. -/
structure Steady (parse : Nat -> Parser -> Reply α) : Prop where
  kept (depth : Nat) (parser : Parser) :
    (parse depth parser).KeptBy (parse (depth + 1) parser)
  enough {depth : Nat} {parser : Parser} :
    4 * parser.left + 8 ≤ depth -> parse depth parser ≠ .tooDeep

theorem steady (construct : Construct) : Steady construct.within where
  kept := construct.within_keptBy
  enough {_ parser} h :=
    Call.finishes_of_left ⟨construct, parser⟩ (Nat.le_trans (by simp) h)

theorem steady_expression : Steady expressionWithin :=
  steady .expression

theorem steady_primary : Steady primaryWithin :=
  steady .primary

theorem steady_grouping : Steady groupingWithin :=
  steady .grouping

theorem steady_reference (name : String) : Steady (referenceWithin name) :=
  steady (.reference name)

theorem steady_arguments : Steady argumentsWithin :=
  steady .arguments

theorem steady_operations (least : Int32) (left : Expr) :
    Steady (operationsWithin least left) :=
  steady (.operations least left)

theorem steady_parameters : Steady parametersWithin :=
  steady .parameters

theorem steady_prototype : Steady prototypeWithin :=
  steady .prototype

theorem steady_external : Steady externalWithin :=
  steady .external

theorem steady_definition : Steady definitionWithin :=
  steady .definition

theorem steady_bareExpression : Steady bareExpressionWithin :=
  steady .bareExpression

theorem steady_topLevel : Steady topLevelWithin :=
  steady .topLevel

namespace Steady

variable {parse : Nat -> Parser -> Reply α}

theorem kept_le (h : Steady parse) {depth deeper : Nat} (hle : depth ≤ deeper)
    (parser : Parser) : (parse depth parser).KeptBy (parse deeper parser) := by
  induction hle with
  | refl => exact keptBy_refl _
  | @step deeper _ ih => exact keptBy_trans ih (h.kept deeper parser)

theorem settled_eq (h : Steady parse) (depth : Nat) {parser : Parser}
    (hdepth : parse depth parser ≠ .tooDeep) :
    parser.settled parse = (parse depth parser).settle parser := by
  have henough := h.enough (left_le_depth parser)
  have hfrom := h.kept_le (Nat.le_max_left depth parser.depth) parser
  have hto := h.kept_le (Nat.le_max_right depth parser.depth) parser
  cases hfrom with
  | inl hdeep => exact absurd hdeep hdepth
  | inr hfrom =>
      cases hto with
      | inl hdeep => exact absurd hdeep henough
      | inr hto => rw [settled, ← hto, hfrom]

end Steady
end Parser
end Kaleidoscope

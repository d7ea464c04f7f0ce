import Kaleidoscope.Proofs.Parser.Operations

/-!
# Precedence climbing

The loop over operations goes through a run up to its end and leaves the tree of
the run, or it breaks off in an operand and leaves the error of that operand.
There is no third way, whatever the table is.
-/

namespace Kaleidoscope
namespace Parser

/-!
# Where the loop breaks off
-/

theorem broken_split {least : Int32} (threshold : Int32) {parser rest : Parser}
    {error : SyntaxError} (h : Broken least parser error rest) :
    Broken threshold parser error rest ∨
      exists before middle, Run threshold parser before middle ∧
        Broken least middle error rest := by
  induction h with
  | @operand parser rest op error hkind hleast herror =>
      by_cases hstop : parser.precedence < threshold
      · exact Or.inr ⟨[], parser, Run.stop hstop, Broken.operand hkind hleast herror⟩
      · exact Or.inl (Broken.operand hkind hstop herror)
  | @step parser middle rest op right error hkind hleast hright hrest ih =>
      by_cases hstop : parser.precedence < threshold
      · exact Or.inr ⟨[], parser, Run.stop hstop,
          Broken.step hkind hleast hright hrest⟩
      · rcases ih with hbroken | ⟨before, further, hbefore, hbroken⟩
        · exact Or.inl (Broken.step hkind hstop hright hbroken)
        · exact Or.inr ⟨(op, right) :: before, further,
            Run.step hkind hstop hright hbefore, hbroken⟩

theorem broken_inv {least : Int32} {parser rest : Parser} {error : SyntaxError}
    (h : Broken least parser error rest) :
    exists op, parser.current.kind = .character op ∧ ¬ parser.precedence < least ∧
      (parser.advance.primary = (.error error, rest) ∨
        exists right middle, parser.advance.primary = (.ok right, middle) ∧
          Broken least middle error rest) := by
  cases h with
  | operand hkind hleast herror => exact ⟨_, hkind, hleast, Or.inl herror⟩
  | step hkind hleast hright hrest =>
      exact ⟨_, hkind, hleast, Or.inr ⟨_, _, hright, hrest⟩⟩

theorem operations_of_broken {least : Int32} {parser rest : Parser} {error : SyntaxError}
    (h : Broken least parser error rest) (left : Expr) :
    parser.operations least left = (.error error, rest) := by
  rcases broken_inv h with ⟨op, hkind, hleast, herror | ⟨right, middle, hright, hrest⟩⟩
  · rw [operations_of_character hleast hkind, herror, Result.followedBy_error]
  · have hused := operation_reaches hkind hright
    rw [operations_of_character hleast hkind, hright, Result.followedBy_ok]
    by_cases htighter : parser.precedence < middle.precedence
    · rw [if_pos htighter]
      rcases broken_split (parser.precedence + 1) hrest with
        hinner | ⟨before, further, hinner, houter⟩
      · rw [operations_of_broken hinner right, Result.followedBy_error]
      · have hfurther := reaches_left (run_reaches hinner)
        rw [operations_of_run hinner right, Result.followedBy_ok]
        exact operations_of_broken houter _
    · rw [if_neg htighter]
      exact operations_of_broken hrest _
termination_by parser.left
decreasing_by
  · exact hused.right
  · have := hused.right
    omega
  · exact hused.right

theorem run_or_broken {least : Int32} (hleast : 0 ≤ least) (parser : Parser) :
    (exists operations rest, Run least parser operations rest) ∨
      exists error rest, Broken least parser error rest := by
  -- The left operand decides neither, so any will do.
  cases hresult : parser.operations least (.var "") with
  | mk result rest =>
      cases result with
      | ok value =>
          rcases run_of_operations hleast hresult with ⟨operations, hrun⟩
          exact Or.inl ⟨operations, rest, hrun⟩
      | error error => exact Or.inr ⟨error, rest, broken_of_operations hleast hresult⟩

/-!
# The largest precedence

The loop asks for more than a precedence only after it has met a greater one, so
it never asks for more than the largest one.
-/

def addOne? (precedence : Int32) : Option Int32 :=
  if precedence = Int32.maxValue then
    none
  else
    some (precedence + 1)

theorem addOne?_of_lt {p q : Int32} (h : p < q) : addOne? p = some (p + 1) := by
  rw [addOne?, if_neg]
  intro hmax
  rw [hmax] at h
  exact Int32.not_lt.mpr (Int32.le_maxValue q) h

def Reply.andThen? (reply : Reply α) (next : α -> Parser -> Option (Reply β)) :
    Option (Reply β) :=
  match reply with
  | .parsed value rest => next value rest
  | .failed error rest => some (.failed error rest)
  | .tooDeep => some .tooDeep

theorem andThen?_of_some {reply : Reply α} {next? : α -> Parser -> Option (Reply β)}
    {next : α -> Parser -> Reply β}
    (h : forall value rest, next? value rest = some (next value rest)) :
    reply.andThen? next? = some (reply.andThen next) := by
  cases reply with
  | parsed value rest => exact h value rest
  | failed error rest => rfl
  | tooDeep => rfl

/--
The loop over operations, given up where one more than a precedence is too large.
A loop inside an operand is a loop of its own.
-/
def checkedWithin (least : Int32) (left : Expr) : Nat -> Parser -> Option (Reply Expr)
  | 0, _ => some .tooDeep
  | depth + 1, parser =>
      if parser.precedence < least then
        some (.parsed left parser)
      else
        match parser.current.kind with
        | .character op =>
            (primaryWithin depth parser.advance).andThen? fun right rest =>
              if parser.precedence < rest.precedence then
                (addOne? parser.precedence).bind fun tighter =>
                  (checkedWithin tighter right depth rest).bind fun reply =>
                    reply.andThen? fun right rest =>
                      checkedWithin least (.binary op left right) depth rest
              else
                checkedWithin least (.binary op left right) depth rest
        | _ => some (.parsed left parser.advance)

theorem checkedWithin_eq (least : Int32) (left : Expr) (depth : Nat) (parser : Parser) :
    checkedWithin least left depth parser =
      some (operationsWithin least left depth parser) := by
  induction depth generalizing least left parser with
  | zero => rfl
  | succ depth ih =>
      rw [checkedWithin, operationsWithin]
      by_cases hstop : parser.precedence < least
      · rw [if_pos hstop, if_pos hstop]
      · rw [if_neg hstop, if_neg hstop]
        cases hkind : parser.current.kind with
        | character op =>
            apply andThen?_of_some
            intro right rest
            by_cases htighter : parser.precedence < rest.precedence
            · rw [if_pos htighter, if_pos htighter, addOne?_of_lt htighter,
                Option.bind_some, ih, Option.bind_some]
              apply andThen?_of_some
              intro wider after
              exact ih least (.binary op left wider) after
            · rw [if_neg htighter, if_neg htighter]
              exact ih least (.binary op left right) rest
        | endOfInput | define | external | identifier | number => rfl

/-!
# All runs of the loop
-/

/-- What the loop over operations does from a left operand on. -/
structure Climbs (least : Int32) (left : Expr) (parser : Parser) : Prop where
  tree {operations : List Operation} {rest : Parser} :
    Run least parser operations rest ->
      parser.operations least left =
        (.ok (parser.operators.tree left operations), rest)
  error {error : SyntaxError} {rest : Parser} :
    Broken least parser error rest ->
      parser.operations least left = (.error error, rest)
  total :
    (exists operations rest, Run least parser operations rest) ∨
      exists error rest, Broken least parser error rest
  no_overflow (depth : Nat) :
    checkedWithin least left depth parser =
      some (operationsWithin least left depth parser)

theorem operations_climbs {least : Int32} (hleast : 0 ≤ least) (left : Expr)
    (parser : Parser) : parser.Climbs least left where
  tree h := operations_of_run h left
  error h := operations_of_broken h left
  total := run_or_broken hleast parser
  no_overflow depth := checkedWithin_eq least left depth parser

def highestOperators : Parser :=
  ((start (.start (.ofString "- a ^ b * c < d )") "shell")).install '^' Int32.maxValue).install
    '*' Int32.maxValue

theorem operations_climbs_highest :
    (0 : Int32) ≤ 11 ∧ highestOperators.Climbs 11 (.var "x") ∧
      exists operations rest, Run 11 highestOperators operations rest ∧
        highestOperators.operators.tree (.var "x") operations =
          .binary '-' (.var "x")
            (.binary '*' (.binary '^' (.var "a") (.var "b")) (.var "c")) := by
  have hclimbs : highestOperators.Climbs 11 (.var "x") :=
    operations_climbs (by decide) (.var "x") highestOperators
  have hvalue : (highestOperators.operations 11 (.var "x")).1.toOption =
      some (.binary '-' (.var "x")
        (.binary '*' (.binary '^' (.var "a") (.var "b")) (.var "c"))) := by
    decide +kernel
  refine ⟨by decide, hclimbs, ?_⟩
  rcases hclimbs.total with ⟨operations, rest, hrun⟩ | ⟨error, rest, hbroken⟩
  · rw [hclimbs.tree hrun] at hvalue
    injection hvalue with hvalue
    exact ⟨operations, rest, hrun, hvalue⟩
  · rw [hclimbs.error hbroken] at hvalue
    cases hvalue

end Parser
end Kaleidoscope

import Kaleidoscope.Proofs.Parser.Depth

/-!
# Calls

To read a construct is to call further constructs, and a loop goes on in passes.
Each call and each pass lowers a rank, which is linear in the number of tokens left.
So the calls inside one another are bounded, together with the passes of their
loops, and a depth above that bound is enough.
-/

namespace Kaleidoscope
namespace Parser

/-!
# Constructs

Three of the constructs are loops: the arguments of a call, the operations after
an operand, and the parameters of a prototype.
-/

inductive Construct where
  | expression
  | primary
  | grouping
  | reference (name : String)
  | arguments
  | operations (least : Int32) (left : Expr)
  | parameters
  | prototype
  | definition
  | external
  | bareExpression
  | topLevel

namespace Construct

def Value : Construct -> Type
  | .expression => Expr
  | .primary => Expr
  | .grouping => Expr
  | .reference _ => Expr
  | .arguments => List Expr
  | .operations _ _ => Expr
  | .parameters => List String
  | .prototype => Prototype
  | .definition => Definition
  | .external => Prototype
  | .bareExpression => Definition
  | .topLevel => TopLevel

def within : (construct : Construct) -> Nat -> Parser -> Reply construct.Value
  | .expression => expressionWithin
  | .primary => primaryWithin
  | .grouping => groupingWithin
  | .reference name => referenceWithin name
  | .arguments => argumentsWithin
  | .operations least left => operationsWithin least left
  | .parameters => parametersWithin
  | .prototype => prototypeWithin
  | .definition => definitionWithin
  | .external => externalWithin
  | .bareExpression => bareExpressionWithin
  | .topLevel => topLevelWithin

theorem within_keptBy (construct : Construct) (depth : Nat) (parser : Parser) :
    (construct.within depth parser).KeptBy (construct.within (depth + 1) parser) := by
  cases construct with
  | expression => exact (keptAt depth).expression parser
  | primary => exact (keptAt depth).primary parser
  | grouping => exact (keptAt depth).grouping parser
  | reference name => exact (keptAt depth).reference name parser
  | arguments => exact (keptAt depth).arguments parser
  | operations least left => exact (keptAt depth).operations least left parser
  | parameters => exact parametersWithin_keptBy depth parser
  | prototype => exact prototypeWithin_keptBy depth parser
  | definition => exact definitionWithin_keptBy depth parser
  | external => exact prototypeWithin_keptBy depth parser.advance
  | bareExpression => exact bareExpressionWithin_keptBy depth parser
  | topLevel => exact topLevelWithin_keptBy depth parser

end Construct

/-!
# Calls and passes

A call is a construct together with the parser it begins at.  What it calls may
depend on what it has read before, at whatever depth that was read.
-/

/-- A construct is read with the given value at some depth. -/
def Gives (parse : Nat -> Parser -> Reply α) (parser : Parser) (value : α)
    (rest : Parser) : Prop :=
  exists depth, parse depth parser = .parsed value rest

theorem gives_of_settled {parse : Nat -> Parser -> Reply α} {parser rest : Parser}
    {value : α} (h : parser.settled parse = (.ok value, rest)) :
    Gives parse parser value rest := by
  exists parser.depth
  unfold settled at h
  cases hreply : parse parser.depth parser with
  | parsed first middle =>
      rw [hreply] at h
      cases h
      rfl
  | failed error middle =>
      rw [hreply] at h
      cases h
  | tooDeep =>
      rw [hreply] at h
      cases h

structure Operates (least : Int32) (parser : Parser) (op : Char) (right : Expr)
    (rest : Parser) : Prop where
  reached : ¬ parser.precedence < least
  operator : parser.current.kind = .character op
  operand : Gives primaryWithin parser.advance right rest

theorem operates_left {least : Int32} {parser rest : Parser} {op : Char} {right : Expr}
    (h : Operates least parser op right rest) : rest.left < parser.left := by
  rcases h.operand with ⟨depth, hoperand⟩
  calc
    rest.left < parser.advance.left := (progress depth).primary hoperand
    _ ≤ parser.left := advance_left_le parser

structure Call where
  construct : Construct
  parser : Parser

namespace Call

/-- One call makes another. -/
inductive Makes : Call -> Call -> Prop where
  | operand (parser : Parser) : Makes ⟨.expression, parser⟩ ⟨.primary, parser⟩
  | operations {parser rest : Parser} {left : Expr} :
      Gives primaryWithin parser left rest ->
      Makes ⟨.expression, parser⟩ ⟨.operations 0 left, rest⟩
  | reference {parser : Parser} {name : String} :
      parser.current.kind = .identifier name ->
      Makes ⟨.primary, parser⟩ ⟨.reference name, parser⟩
  | grouping {parser : Parser} :
      parser.current.kind = .character '(' ->
      Makes ⟨.primary, parser⟩ ⟨.grouping, parser⟩
  | content (parser : Parser) :
      Makes ⟨.grouping, parser⟩ ⟨.expression, parser.advance⟩
  | arguments {parser : Parser} (name : String) :
      parser.advance.current.kind = .character '(' ->
      parser.advance.advance.current.kind ≠ .character ')' ->
      Makes ⟨.reference name, parser⟩ ⟨.arguments, parser.advance.advance⟩
  | argument (parser : Parser) : Makes ⟨.arguments, parser⟩ ⟨.expression, parser⟩
  | right {least : Int32} {parser : Parser} {op : Char} (left : Expr) :
      ¬ parser.precedence < least ->
      parser.current.kind = .character op ->
      Makes ⟨.operations least left, parser⟩ ⟨.primary, parser.advance⟩
  | tighter {least : Int32} {parser rest : Parser} {op : Char} {right : Expr}
      (left : Expr) :
      Operates least parser op right rest ->
      parser.precedence < rest.precedence ->
      Makes ⟨.operations least left, parser⟩
        ⟨.operations (parser.precedence + 1) right, rest⟩
  | parameters {parser : Parser} {name : String} :
      parser.current.kind = .identifier name ->
      parser.advance.current.kind = .character '(' ->
      Makes ⟨.prototype, parser⟩ ⟨.parameters, parser.advance.advance⟩
  | defined (parser : Parser) :
      Makes ⟨.definition, parser⟩ ⟨.prototype, parser.advance⟩
  | body {parser rest : Parser} {prototype : Prototype} :
      Gives prototypeWithin parser.advance prototype rest ->
      Makes ⟨.definition, parser⟩ ⟨.expression, rest⟩
  | declared (parser : Parser) :
      Makes ⟨.external, parser⟩ ⟨.prototype, parser.advance⟩
  | bare (parser : Parser) : Makes ⟨.bareExpression, parser⟩ ⟨.expression, parser⟩
  | definition {parser : Parser} :
      parser.current.kind = .define ->
      Makes ⟨.topLevel, parser⟩ ⟨.definition, parser⟩
  | external {parser : Parser} :
      parser.current.kind = .external ->
      Makes ⟨.topLevel, parser⟩ ⟨.external, parser⟩
  | bareExpression {parser : Parser} :
      parser.current.kind ≠ .define ->
      parser.current.kind ≠ .external ->
      Makes ⟨.topLevel, parser⟩ ⟨.bareExpression, parser⟩

/-- A loop goes on to its next pass. -/
inductive Repeats : Call -> Call -> Prop where
  | argument {parser rest : Parser} {value : Expr} :
      Gives expressionWithin parser value rest ->
      rest.current.kind = .character ',' ->
      Repeats ⟨.arguments, parser⟩ ⟨.arguments, rest.advance⟩
  | operation {least : Int32} {parser rest : Parser} {op : Char} {right : Expr}
      (left : Expr) :
      Operates least parser op right rest ->
      ¬ parser.precedence < rest.precedence ->
      Repeats ⟨.operations least left, parser⟩
        ⟨.operations least (.binary op left right), rest⟩
  | tighterOperation {least : Int32} {parser middle rest : Parser} {op : Char}
      {right wider : Expr} (left : Expr) :
      Operates least parser op right middle ->
      parser.precedence < middle.precedence ->
      Gives (operationsWithin (parser.precedence + 1) right) middle wider rest ->
      Repeats ⟨.operations least left, parser⟩
        ⟨.operations least (.binary op left wider), rest⟩
  | parameter {parser : Parser} {name : String} :
      parser.current.kind = .identifier name ->
      Repeats ⟨.parameters, parser⟩ ⟨.parameters, parser.advance⟩

/--
From one call to another, by a number of calls, each inside the one before it,
and a number of passes that the loops among these calls go on for.
-/
inductive Leads : Call -> Nat -> Nat -> Call -> Prop where
  | here (call : Call) : Leads call 0 0 call
  | call {call inner last : Call} {calls passes : Nat} :
      call.Makes inner -> Leads inner calls passes last ->
      Leads call (calls + 1) passes last
  | pass {call next last : Call} {calls passes : Nat} :
      call.Repeats next -> Leads next calls passes last ->
      Leads call calls (passes + 1) last

/-!
# Ranks

A call begins where the one that makes it stands by then, so the tokens left never
grow.  Arguments, their first expression and its operand begin at one token, so
there the construct has to lower the rank, and each token counts for several calls.
-/

def rank (call : Call) : Nat :=
  match call.construct with
  | .topLevel => 4 * call.parser.left + 4
  | .bareExpression => 4 * call.parser.left + 3
  | .definition => 4 * call.parser.advance.left + 3
  | .external => call.parser.advance.left + 2
  | .prototype => call.parser.left + 1
  | .parameters => call.parser.left
  | .arguments => 4 * call.parser.left + 3
  | .grouping => 4 * call.parser.advance.left + 3
  | .expression => 4 * call.parser.left + 2
  | .primary => 4 * call.parser.left + 1
  | .operations _ _ => 4 * call.parser.left
  | .reference _ => 4 * call.parser.advance.left

theorem rank_le (call : Call) : call.rank ≤ 4 * call.parser.left + 4 := by
  have hadvance := advance_left_le call.parser
  unfold rank
  split <;> omega

theorem makes_rank {call inner : Call} (h : call.Makes inner) :
    inner.rank < call.rank := by
  cases h with
  | operand parser => exact Nat.lt_succ_self _
  | @operations parser rest left hleft =>
      rcases hleft with ⟨depth, hleft⟩
      have hused := (progress depth).primary hleft
      show 4 * rest.left < 4 * parser.left + 2
      omega
  | @reference parser name hkind =>
      have hadvance := advance_left_le parser
      show 4 * parser.advance.left < 4 * parser.left + 1
      omega
  | @grouping parser hkind =>
      have hopen := advance_left_lt_of_kind hkind (by simp)
      show 4 * parser.advance.left + 3 < 4 * parser.left + 1
      omega
  | content parser => exact Nat.lt_succ_self _
  | @arguments parser name hopen hclose =>
      have hused := advance_left_lt_of_kind hopen (by simp)
      show 4 * parser.advance.advance.left + 3 < 4 * parser.advance.left
      omega
  | argument parser => exact Nat.lt_succ_self _
  | @right least parser op left hreached hkind =>
      have hused := advance_left_lt_of_kind hkind (by simp)
      show 4 * parser.advance.left + 1 < 4 * parser.left
      omega
  | @tighter least parser rest op right left hoperates htighter =>
      have hused := operates_left hoperates
      show 4 * rest.left < 4 * parser.left
      omega
  | @parameters parser name hkind hopen =>
      have hname := advance_left_le parser
      have hused := advance_left_le parser.advance
      show parser.advance.advance.left < parser.left + 1
      omega
  | defined parser =>
      show parser.advance.left + 1 < 4 * parser.advance.left + 3
      omega
  | @body parser rest prototype hprototype =>
      rcases hprototype with ⟨depth, hprototype⟩
      have hused := prototypeWithin_left hprototype
      show 4 * rest.left + 2 < 4 * parser.advance.left + 3
      omega
  | declared parser => exact Nat.lt_succ_self _
  | bare parser => exact Nat.lt_succ_self _
  | @definition parser hkind =>
      have hadvance := advance_left_le parser
      show 4 * parser.advance.left + 3 < 4 * parser.left + 4
      omega
  | @external parser hkind =>
      have hadvance := advance_left_le parser
      show parser.advance.left + 2 < 4 * parser.left + 4
      omega
  | bareExpression hdefine hexternal => exact Nat.lt_succ_self _

theorem repeats_rank {call next : Call} (h : call.Repeats next) :
    next.rank < call.rank := by
  cases h with
  | @argument parser rest value hvalue hcomma =>
      rcases hvalue with ⟨depth, hvalue⟩
      have hused := (progress depth).expression hvalue
      have hadvance := advance_left_le rest
      show 4 * rest.advance.left + 3 < 4 * parser.left + 3
      omega
  | @operation least parser rest op right left hoperates hlooser =>
      have hused := operates_left hoperates
      show 4 * rest.left < 4 * parser.left
      omega
  | @tighterOperation least parser middle rest op right wider left hoperates htighter
      hwider =>
      rcases hwider with ⟨depth, hwider⟩
      have hused := operates_left hoperates
      have hinner := (progress depth).operations hwider
      show 4 * rest.left < 4 * parser.left
      omega
  | @parameter parser name hkind =>
      exact advance_left_lt_of_kind hkind (by simp)

theorem leads_rank {call last : Call} {calls passes : Nat}
    (h : call.Leads calls passes last) : calls + passes + last.rank ≤ call.rank := by
  induction h with
  | here call => exact Nat.le_of_eq (Nat.zero_add _)
  | call hmakes _ ih =>
      have hless := makes_rank hmakes
      omega
  | pass hrepeats _ ih =>
      have hless := repeats_rank hrepeats
      omega

/-- The calls inside one another and the passes of their loops are bounded together. -/
theorem leads_bounded {call last : Call} {calls passes : Nat}
    (h : call.Leads calls passes last) :
    calls + passes < 4 * call.parser.left + 5 := by
  have hleads := leads_rank h
  have hrank := rank_le call
  omega

/-!
# Enough depth

A call finishes within a depth once all that it makes and its next pass finish
within one level less.
-/

def Finishes (depth : Nat) (call : Call) : Prop :=
  call.construct.within depth call.parser ≠ .tooDeep

theorem finishes_succ {depth : Nat} {call : Call} (h : call.Finishes depth) :
    call.Finishes (depth + 1) := by
  intro hdeep
  rcases call.construct.within_keptBy depth call.parser with htooDeep | hsame
  · exact h htooDeep
  · exact h (hsame.symm.trans hdeep)

structure Supplied (depth : Nat) (call : Call) : Prop where
  makes {inner : Call} : call.Makes inner -> inner.Finishes depth
  repeats {next : Call} : call.Repeats next -> next.Finishes depth

namespace Supplied

variable {depth : Nat} {parser : Parser}

theorem expression (h : Supplied depth ⟨.expression, parser⟩) :
    expressionWithin (depth + 1) parser ≠ .tooDeep := by
  unfold expressionWithin
  apply andThen_ne_tooDeep (h.makes (.operand parser))
  intro left rest hleft
  exact h.makes (.operations ⟨depth, hleft⟩)

theorem primary (h : Supplied depth ⟨.primary, parser⟩) :
    primaryWithin (depth + 1) parser ≠ .tooDeep := by
  unfold primaryWithin
  split
  · next hkind => exact h.makes (.reference hkind)
  · exact parsed_ne_tooDeep _ _
  · next hkind => exact h.makes (.grouping hkind)
  · exact fail_ne_tooDeep _ _

theorem grouping (h : Supplied depth ⟨.grouping, parser⟩) :
    groupingWithin (depth + 1) parser ≠ .tooDeep := by
  unfold groupingWithin
  apply andThen_ne_tooDeep (h.makes (.content parser))
  intro content rest _
  exact map_ne_tooDeep (expect_ne_tooDeep _ _ _)

theorem reference {name : String} (h : Supplied depth ⟨.reference name, parser⟩) :
    referenceWithin name (depth + 1) parser ≠ .tooDeep := by
  unfold referenceWithin
  dsimp only
  split
  · next hopen =>
      have hopen := (Token.isCharacter_iff '(' _).mp hopen
      split
      · exact parsed_ne_tooDeep _ _
      · next hclose =>
          have hclose := mt (Token.isCharacter_iff ')' _).mpr hclose
          apply andThen_ne_tooDeep (h.makes (.arguments name hopen hclose))
          intro values rest _
          exact parsed_ne_tooDeep _ _
  · exact parsed_ne_tooDeep _ _

theorem arguments (h : Supplied depth ⟨.arguments, parser⟩) :
    argumentsWithin (depth + 1) parser ≠ .tooDeep := by
  unfold argumentsWithin
  apply andThen_ne_tooDeep (h.makes (.argument parser))
  intro argument rest hargument
  split
  · exact parsed_ne_tooDeep _ _
  · apply andThen_ne_tooDeep (expect_ne_tooDeep _ _ _)
    intro token after hexpect
    rcases expect_eq_parsed hexpect with ⟨hcomma, hafter⟩
    rw [hafter]
    exact map_ne_tooDeep (h.repeats (.argument ⟨depth, hargument⟩ hcomma))

theorem operations {least : Int32} {left : Expr}
    (h : Supplied depth ⟨.operations least left, parser⟩) :
    operationsWithin least left (depth + 1) parser ≠ .tooDeep := by
  unfold operationsWithin
  split
  · exact parsed_ne_tooDeep _ _
  · next hreached =>
      split
      · next op hkind =>
          apply andThen_ne_tooDeep (h.makes (.right left hreached hkind))
          intro right rest hright
          have hoperates : Operates least parser op right rest :=
            ⟨hreached, hkind, depth, hright⟩
          split
          · next htighter =>
              apply andThen_ne_tooDeep (h.makes (.tighter left hoperates htighter))
              intro wider after hwider
              exact h.repeats
                (.tighterOperation left hoperates htighter ⟨depth, hwider⟩)
          · next hlooser => exact h.repeats (.operation left hoperates hlooser)
      · exact parsed_ne_tooDeep _ _

theorem parameters (h : Supplied depth ⟨.parameters, parser⟩) :
    parametersWithin (depth + 1) parser ≠ .tooDeep := by
  unfold parametersWithin
  split
  · next hkind => exact map_ne_tooDeep (h.repeats (.parameter hkind))
  · exact parsed_ne_tooDeep _ _

/-!
# Constructs that hand their depth on

A unit and its parts take no level of their own, so what they make has one more
than it needs.
-/

theorem prototype (h : Supplied depth ⟨.prototype, parser⟩) :
    prototypeWithin (depth + 1) parser ≠ .tooDeep := by
  unfold prototypeWithin
  split
  · next hkind =>
      dsimp only
      split
      · next hopen =>
          have hopen := (Token.isCharacter_iff '(' _).mp hopen
          apply andThen_ne_tooDeep (finishes_succ (h.makes (.parameters hkind hopen)))
          intro names rest _
          exact map_ne_tooDeep (expect_ne_tooDeep _ _ _)
      · exact fail_ne_tooDeep _ _
  · exact fail_ne_tooDeep _ _

theorem definition (h : Supplied depth ⟨.definition, parser⟩) :
    definitionWithin (depth + 1) parser ≠ .tooDeep := by
  unfold definitionWithin
  apply andThen_ne_tooDeep (finishes_succ (h.makes (.defined parser)))
  intro prototype rest hprototype
  exact map_ne_tooDeep (finishes_succ (h.makes (.body ⟨depth + 1, hprototype⟩)))

theorem topLevel (h : Supplied depth ⟨.topLevel, parser⟩) :
    topLevelWithin (depth + 1) parser ≠ .tooDeep := by
  unfold topLevelWithin
  split
  · next hkind => exact map_ne_tooDeep (finishes_succ (h.makes (.definition hkind)))
  · next hkind => exact map_ne_tooDeep (finishes_succ (h.makes (.external hkind)))
  · next hdefine hexternal =>
      exact map_ne_tooDeep (finishes_succ (h.makes (.bareExpression hdefine hexternal)))

theorem finishes {call : Call} (h : Supplied depth call) : call.Finishes (depth + 1) := by
  rcases call with ⟨construct, parser⟩
  cases construct with
  | expression => exact h.expression
  | primary => exact h.primary
  | grouping => exact h.grouping
  | reference name => exact h.reference
  | arguments => exact h.arguments
  | operations least left => exact h.operations
  | parameters => exact h.parameters
  | prototype => exact h.prototype
  | definition => exact h.definition
  | external =>
      have hprototype := finishes_succ (h.makes (.declared parser))
      exact hprototype
  | bareExpression => exact map_ne_tooDeep (finishes_succ (h.makes (.bare parser)))
  | topLevel => exact h.topLevel

end Supplied

/-- A depth above all numbers of calls and passes that a call leads to is enough. -/
theorem finishes_of_leads {depth : Nat} {call : Call}
    (h : forall calls passes last, call.Leads calls passes last ->
      calls + passes < depth) : call.Finishes depth := by
  induction depth generalizing call with
  | zero => exact absurd (h 0 0 call (.here call)) (Nat.lt_irrefl 0)
  | succ depth ih =>
      apply Supplied.finishes
      -- A chain that begins one step later is longer by that step from here.
      constructor
      · intro inner hmakes
        apply ih
        intro calls passes last hleads
        have hlonger := h _ _ _ (.call hmakes hleads)
        omega
      · intro next hrepeats
        apply ih
        intro calls passes last hleads
        have hlonger := h _ _ _ (.pass hrepeats hleads)
        omega

theorem finishes_of_left {depth : Nat} (call : Call)
    (h : 4 * call.parser.left + 5 ≤ depth) : call.Finishes depth :=
  finishes_of_leads fun _ _ _ hleads => Nat.lt_of_lt_of_le (leads_bounded hleads) h

end Call
end Parser
end Kaleidoscope

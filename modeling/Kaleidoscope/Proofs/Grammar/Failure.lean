import Kaleidoscope.Proofs.Grammar.Unambiguity
import Kaleidoscope.SyntaxError

/-!
# Failures

A failure is a phrase that was begun and cannot go on: the kinds that were used,
the kind that was met after them, and what is said to be wrong.  Whatever the
error names could have stood in that place, and what was met could not.
-/

namespace Kaleidoscope

/-- What an error of some kind says would have been accepted. -/
inductive SyntaxError.Kind.Expects : SyntaxError.Kind -> Token.Kind -> Prop where
  | operand {kind : Token.Kind} : BeginsOperand kind -> Expects .unknownToken kind
  | close : Expects .expectedCloseParen (.character ')')
  | closeArguments : Expects .expectedArgumentDelimiter (.character ')')
  | comma : Expects .expectedArgumentDelimiter (.character ',')
  | functionName (name : String) : Expects .expectedFunctionName (.identifier name)
  | openPrototype : Expects .expectedPrototypeOpenParen (.character '(')
  | closePrototype : Expects .expectedPrototypeCloseParen (.character ')')
  | parameter (name : String) : Expects .expectedPrototypeCloseParen (.identifier name)

/-- A phrase of the category fails after the used kinds, at the next one. -/
inductive Fails (operators : Operators) :
    Category -> List Token.Kind -> Token.Kind -> SyntaxError.Kind -> Prop where
  | operand {next : Token.Kind} :
      ¬ BeginsOperand next -> Fails operators .primary [] next .unknownToken
  | call (name : String) {used : List Token.Kind} {next : Token.Kind}
      {kind : SyntaxError.Kind} :
      Fails operators .arguments used next kind ->
      (used = [] -> next ≠ .character ')') ->
      Fails operators .primary (.identifier name :: .character '(' :: used) next kind
  | grouping {used : List Token.Kind} {next : Token.Kind} {kind : SyntaxError.Kind} :
      Fails operators .expression used next kind ->
      Fails operators .primary (.character '(' :: used) next kind
  | close {inside : List Token.Kind} {value : Expr} {next : Token.Kind} :
      Derives operators inside (.expression value) ->
      Stops operators inside next -> next ≠ .character ')' ->
      Fails operators .primary (.character '(' :: inside) next .expectedCloseParen
  | operation {op : Char} {used : List Token.Kind} {next : Token.Kind}
      {kind : SyntaxError.Kind} :
      operators.IsOperator (.character op) ->
      Fails operators .primary used next kind ->
      Fails operators .operations (.character op :: used) next kind
  | laterOperation {op : Char} {operand used : List Token.Kind} {right : Expr}
      {next : Token.Kind} {kind : SyntaxError.Kind} :
      operators.IsOperator (.character op) ->
      Derives operators operand (.primary right) ->
      Fails operators .operations used next kind ->
      Fails operators .operations (.character op :: (operand ++ used)) next kind
  | left {used : List Token.Kind} {next : Token.Kind} {kind : SyntaxError.Kind} :
      Fails operators .primary used next kind ->
      Fails operators .expression used next kind
  | right {operand used : List Token.Kind} {left : Expr} {next : Token.Kind}
      {kind : SyntaxError.Kind} :
      Derives operators operand (.primary left) ->
      Fails operators .operations used next kind ->
      Fails operators .expression (operand ++ used) next kind
  | argument {used : List Token.Kind} {next : Token.Kind} {kind : SyntaxError.Kind} :
      Fails operators .expression used next kind ->
      Fails operators .arguments used next kind
  | delimiter {argument : List Token.Kind} {value : Expr} {next : Token.Kind} :
      Derives operators argument (.expression value) ->
      Stops operators argument next -> next ≠ .character ')' ->
      next ≠ .character ',' ->
      Fails operators .arguments argument next .expectedArgumentDelimiter
  | laterArgument {argument used : List Token.Kind} {value : Expr}
      {next : Token.Kind} {kind : SyntaxError.Kind} :
      Derives operators argument (.expression value) ->
      Fails operators .arguments used next kind ->
      Fails operators .arguments (argument ++ .character ',' :: used) next kind
  | functionName {next : Token.Kind} :
      (forall name, next ≠ .identifier name) ->
      Fails operators .prototype [] next .expectedFunctionName
  | openPrototype (name : String) {next : Token.Kind} :
      next ≠ .character '(' ->
      Fails operators .prototype [.identifier name] next .expectedPrototypeOpenParen
  | closePrototype (name : String) {inside : List Token.Kind} {names : List String}
      {next : Token.Kind} :
      Derives operators inside (.parameters names) ->
      (forall name, next ≠ .identifier name) -> next ≠ .character ')' ->
      Fails operators .prototype (.identifier name :: .character '(' :: inside) next
        .expectedPrototypeCloseParen
  | definitionHeader {used : List Token.Kind} {next : Token.Kind}
      {kind : SyntaxError.Kind} :
      Fails operators .prototype used next kind ->
      Fails operators .unit (.define :: used) next kind
  | definitionBody {header used : List Token.Kind} {prototype : Prototype}
      {next : Token.Kind} {kind : SyntaxError.Kind} :
      Derives operators header (.prototype prototype) ->
      Fails operators .expression used next kind ->
      Fails operators .unit (.define :: (header ++ used)) next kind
  | external {used : List Token.Kind} {next : Token.Kind} {kind : SyntaxError.Kind} :
      Fails operators .prototype used next kind ->
      Fails operators .unit (.external :: used) next kind
  | bare {used : List Token.Kind} {next : Token.Kind} {kind : SyntaxError.Kind} :
      Fails operators .expression used next kind ->
      (used = [] -> next ≠ .define ∧ next ≠ .external) ->
      Fails operators .unit used next kind

/-!
# What is expected is accepted
-/

namespace Category

def Complete (operators : Operators) (kinds : List Token.Kind) : Category -> Prop
  | .arguments =>
      exists inside, Category.arguments.Derived operators inside ∧
        kinds = inside ++ [.character ')']
  | category => category.Derived operators kinds

def Continues (operators : Operators) (category : Category)
    (kinds : List Token.Kind) : Prop :=
  exists further, category.Complete operators (kinds ++ further)

end Category

section

variable {operators : Operators}

theorem derived_name (operators : Operators) (name : String) :
    Category.expression.Derived operators [.identifier name] :=
  ⟨_, Derives.expression (Derives.var name) Derives.noOperation⟩

theorem operand_continues {kind : Token.Kind} (h : BeginsOperand kind) :
    Category.primary.Continues operators [kind] := by
  cases h with
  | number value => exact ⟨[], _, Derives.number value⟩
  | name name => exact ⟨[], _, Derives.var name⟩
  | opening =>
      rcases derived_name operators "x" with ⟨value, hname⟩
      exact ⟨[.identifier "x", .character ')'], value, Derives.grouping hname⟩

theorem close_continues {inside : List Token.Kind} {value : Expr}
    (h : Derives operators inside (.expression value)) :
    Category.primary.Continues operators
      (.character '(' :: inside ++ [.character ')']) := by
  exists [], value
  rw [List.append_nil]
  exact Derives.grouping h

theorem call_continues (name : String) {kinds : List Token.Kind}
    (h : Category.arguments.Continues operators kinds) :
    Category.primary.Continues operators
      (.identifier name :: .character '(' :: kinds) := by
  rcases h with ⟨further, inside, ⟨values, hinside⟩, happend⟩
  refine ⟨further, .call name values, ?_⟩
  rw [List.cons_append, List.cons_append, happend]
  exact Derives.call name hinside

theorem grouping_continues {kinds : List Token.Kind}
    (h : Category.expression.Continues operators kinds) :
    Category.primary.Continues operators (.character '(' :: kinds) := by
  rcases h with ⟨further, value, hderives⟩
  refine ⟨further ++ [.character ')'], value, ?_⟩
  have hgrouping := Derives.grouping hderives
  rw [List.append_assoc] at hgrouping
  exact hgrouping

theorem operation_continues {op : Char} {kinds : List Token.Kind}
    (hop : operators.IsOperator (.character op))
    (h : Category.primary.Continues operators kinds) :
    Category.operations.Continues operators (.character op :: kinds) := by
  rcases h with ⟨further, right, hderives⟩
  refine ⟨further, [(op, right)], ?_⟩
  have hoperation := Derives.operation hop hderives Derives.noOperation
  rw [List.append_nil] at hoperation
  exact hoperation

theorem laterOperation_continues {op : Char} {operand kinds : List Token.Kind}
    {right : Expr} (hop : operators.IsOperator (.character op))
    (hoperand : Derives operators operand (.primary right))
    (h : Category.operations.Continues operators kinds) :
    Category.operations.Continues operators
      (.character op :: (operand ++ kinds)) := by
  rcases h with ⟨further, values, hderives⟩
  refine ⟨further, (op, right) :: values, ?_⟩
  have hoperation := Derives.operation hop hoperand hderives
  rw [← List.append_assoc] at hoperation
  exact hoperation

theorem left_continues {kinds : List Token.Kind}
    (h : Category.primary.Continues operators kinds) :
    Category.expression.Continues operators kinds := by
  rcases h with ⟨further, left, hderives⟩
  have hexpression := Derives.expression hderives Derives.noOperation
  rw [List.append_nil] at hexpression
  exact ⟨further, _, hexpression⟩

theorem right_continues {operand kinds : List Token.Kind} {left : Expr}
    (hoperand : Derives operators operand (.primary left))
    (h : Category.operations.Continues operators kinds) :
    Category.expression.Continues operators (operand ++ kinds) := by
  rcases h with ⟨further, values, hderives⟩
  have hexpression := Derives.expression hoperand hderives
  rw [← List.append_assoc] at hexpression
  exact ⟨further, _, hexpression⟩

theorem argument_continues {kinds : List Token.Kind}
    (h : Category.expression.Continues operators kinds) :
    Category.arguments.Continues operators kinds := by
  rcases h with ⟨further, value, hderives⟩
  refine ⟨further ++ [.character ')'], _, ⟨[value], Derives.lastArgument hderives⟩, ?_⟩
  rw [List.append_assoc]

theorem closeArguments_continues {argument : List Token.Kind} {value : Expr}
    (h : Derives operators argument (.expression value)) :
    Category.arguments.Continues operators (argument ++ [.character ')']) :=
  ⟨[], argument, ⟨[value], Derives.lastArgument h⟩, List.append_nil _⟩

theorem laterArgument_continues {argument kinds : List Token.Kind} {value : Expr}
    (hargument : Derives operators argument (.expression value))
    (h : Category.arguments.Continues operators kinds) :
    Category.arguments.Continues operators (argument ++ .character ',' :: kinds) := by
  rcases h with ⟨further, inside, ⟨values, hinside⟩, happend⟩
  refine ⟨further, _, ⟨value :: values, Derives.nextArgument hargument hinside⟩, ?_⟩
  rw [List.append_assoc, List.append_assoc, List.cons_append, List.cons_append, happend]

theorem comma_continues {argument : List Token.Kind} {value : Expr}
    (h : Derives operators argument (.expression value)) :
    Category.arguments.Continues operators (argument ++ [.character ',']) := by
  rcases derived_name operators "x" with ⟨next, hname⟩
  exact laterArgument_continues h
    ⟨[.identifier "x", .character ')'], _, ⟨[next], Derives.lastArgument hname⟩, rfl⟩

theorem prototype_continues (name : String) {inside kinds : List Token.Kind}
    {names : List String}
    (h : Derives operators inside (.parameters names))
    (hclose : exists further, kinds ++ further = inside ++ [.character ')']) :
    Category.prototype.Continues operators
      (.identifier name :: .character '(' :: kinds) := by
  rcases hclose with ⟨further, happend⟩
  refine ⟨further, ⟨name, names⟩, ?_⟩
  rw [List.cons_append, List.cons_append, happend]
  exact Derives.prototype name h

theorem functionName_continues (name : String) :
    Category.prototype.Continues operators [.identifier name] :=
  ⟨[.character '(', .character ')'], ⟨name, []⟩,
    Derives.prototype name Derives.noParameter⟩

theorem parameters_append {kinds others : List Token.Kind} {names more : List String}
    (h : Derives operators kinds (.parameters names))
    (hothers : Derives operators others (.parameters more)) :
    Derives operators (kinds ++ others) (.parameters (names ++ more)) := by
  induction names generalizing kinds with
  | nil =>
      cases h with
      | noParameter => exact hothers
  | cons name names ih =>
      cases h with
      | parameter name hrest => exact Derives.parameter name (ih hrest)

theorem definitionHeader_continues {kinds : List Token.Kind}
    (h : Category.prototype.Continues operators kinds) :
    Category.unit.Continues operators (.define :: kinds) := by
  rcases h with ⟨further, prototype, hderives⟩
  rcases derived_name operators "x" with ⟨value, hname⟩
  refine ⟨further ++ [.identifier "x"], .definition ⟨prototype, value⟩, ?_⟩
  have hdefinition := Derives.definition hderives hname
  rw [List.append_assoc] at hdefinition
  exact hdefinition

theorem definitionBody_continues {header kinds : List Token.Kind}
    {prototype : Prototype} (hheader : Derives operators header (.prototype prototype))
    (h : Category.expression.Continues operators kinds) :
    Category.unit.Continues operators (.define :: (header ++ kinds)) := by
  rcases h with ⟨further, value, hderives⟩
  refine ⟨further, .definition ⟨prototype, value⟩, ?_⟩
  have hdefinition := Derives.definition hheader hderives
  rw [← List.append_assoc] at hdefinition
  exact hdefinition

theorem external_continues {kinds : List Token.Kind}
    (h : Category.prototype.Continues operators kinds) :
    Category.unit.Continues operators (.external :: kinds) := by
  rcases h with ⟨further, prototype, hderives⟩
  exact ⟨further, _, Derives.external hderives⟩

theorem bare_continues {kinds : List Token.Kind}
    (h : Category.expression.Continues operators kinds) :
    Category.unit.Continues operators kinds := by
  rcases h with ⟨further, value, hderives⟩
  exact ⟨further, _, Derives.bare hderives⟩

/-- What an error names could have stood where it was met. -/
theorem fails_expects {category : Category} {used : List Token.Kind}
    {next : Token.Kind} {kind : SyntaxError.Kind}
    (h : Fails operators category used next kind) {expected : Token.Kind}
    (hexpects : kind.Expects expected) :
    category.Continues operators (used ++ [expected]) := by
  induction h with
  | operand _ =>
      cases hexpects with
      | operand hbegins => exact operand_continues hbegins
  | call name _ _ ih => exact call_continues name (ih hexpects)
  | grouping _ ih => exact grouping_continues (ih hexpects)
  | close hinside _ _ =>
      cases hexpects
      exact close_continues hinside
  | operation hop _ ih => exact operation_continues hop (ih hexpects)
  | laterOperation hop hoperand _ ih =>
      rw [List.cons_append, List.append_assoc]
      exact laterOperation_continues hop hoperand (ih hexpects)
  | left _ ih => exact left_continues (ih hexpects)
  | right hoperand _ ih =>
      rw [List.append_assoc]
      exact right_continues hoperand (ih hexpects)
  | argument _ ih => exact argument_continues (ih hexpects)
  | delimiter hargument _ _ _ =>
      cases hexpects with
      | closeArguments => exact closeArguments_continues hargument
      | comma => exact comma_continues hargument
  | laterArgument hargument _ ih =>
      rw [List.append_assoc]
      exact laterArgument_continues hargument (ih hexpects)
  | functionName _ =>
      cases hexpects with
      | functionName name => exact functionName_continues name
  | openPrototype name _ =>
      cases hexpects
      exact prototype_continues name Derives.noParameter ⟨[.character ')'], rfl⟩
  | closePrototype name hinside _ _ =>
      cases hexpects with
      | closePrototype => exact prototype_continues name hinside ⟨[], List.append_nil _⟩
      | parameter more =>
          have hmore := parameters_append hinside (Derives.parameter more Derives.noParameter)
          exact prototype_continues name hmore ⟨[.character ')'], rfl⟩
  | definitionHeader _ ih => exact definitionHeader_continues (ih hexpects)
  | definitionBody hheader _ ih =>
      rw [List.cons_append, List.append_assoc]
      exact definitionBody_continues hheader (ih hexpects)
  | external _ ih => exact external_continues (ih hexpects)
  | bare _ _ ih => exact bare_continues (ih hexpects)

end

end Kaleidoscope

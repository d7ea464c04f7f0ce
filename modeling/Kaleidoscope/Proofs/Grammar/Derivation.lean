import Mathlib.Data.List.Basic
import Kaleidoscope.Proofs.Parser.Operations

/-!
# The token grammar

The grammar derives lists of token kinds.  A unit is a definition, an external
declaration or an expression; an expression is an operand and operations; an
operand is a number, a variable, a call or a grouping.  Operations stand for
the tree that their precedences give.
-/

namespace Kaleidoscope

inductive Phrase where
  | primary (value : Expr)
  | operations (values : List Operation)
  | expression (value : Expr)
  | arguments (values : List Expr)
  | parameters (names : List String)
  | prototype (value : Prototype)
  | unit (value : TopLevel)

/-- An operator is an ASCII character with a positive precedence in the table. -/
def Operators.IsOperator (operators : Operators) (kind : Token.Kind) : Prop :=
  exists op precedence, kind = .character op ∧
    operators.precedence? op = some precedence

inductive Derives (operators : Operators) : List Token.Kind -> Phrase -> Prop where
  | number (value : Binary64) :
      Derives operators [.number value] (.primary (.number value))
  | var (name : String) :
      Derives operators [.identifier name] (.primary (.var name))
  | emptyCall (name : String) :
      Derives operators [.identifier name, .character '(', .character ')']
        (.primary (.call name []))
  | call (name : String) {inside : List Token.Kind} {values : List Expr} :
      Derives operators inside (.arguments values) ->
      Derives operators
        (.identifier name :: .character '(' :: (inside ++ [.character ')']))
        (.primary (.call name values))
  | grouping {inside : List Token.Kind} {value : Expr} :
      Derives operators inside (.expression value) ->
      Derives operators (.character '(' :: (inside ++ [.character ')']))
        (.primary value)
  | noOperation : Derives operators [] (.operations [])
  | operation {op : Char} {operand others : List Token.Kind} {right : Expr}
      {values : List Operation} :
      operators.IsOperator (.character op) ->
      Derives operators operand (.primary right) ->
      Derives operators others (.operations values) ->
      Derives operators (.character op :: (operand ++ others))
        (.operations ((op, right) :: values))
  | expression {operand others : List Token.Kind} {left : Expr}
      {values : List Operation} :
      Derives operators operand (.primary left) ->
      Derives operators others (.operations values) ->
      Derives operators (operand ++ others)
        (.expression (operators.tree left values))
  | lastArgument {kinds : List Token.Kind} {value : Expr} :
      Derives operators kinds (.expression value) ->
      Derives operators kinds (.arguments [value])
  | nextArgument {kinds others : List Token.Kind} {value : Expr}
      {values : List Expr} :
      Derives operators kinds (.expression value) ->
      Derives operators others (.arguments values) ->
      Derives operators (kinds ++ .character ',' :: others)
        (.arguments (value :: values))
  | noParameter : Derives operators [] (.parameters [])
  | parameter (name : String) {others : List Token.Kind} {names : List String} :
      Derives operators others (.parameters names) ->
      Derives operators (.identifier name :: others) (.parameters (name :: names))
  | prototype (name : String) {inside : List Token.Kind} {names : List String} :
      Derives operators inside (.parameters names) ->
      Derives operators
        (.identifier name :: .character '(' :: (inside ++ [.character ')']))
        (.prototype ⟨name, names⟩)
  | definition {header body : List Token.Kind} {prototype : Prototype}
      {value : Expr} :
      Derives operators header (.prototype prototype) ->
      Derives operators body (.expression value) ->
      Derives operators (.define :: (header ++ body))
        (.unit (.definition ⟨prototype, value⟩))
  | external {header : List Token.Kind} {prototype : Prototype} :
      Derives operators header (.prototype prototype) ->
      Derives operators (.external :: header) (.unit (.external prototype))
  | bare {kinds : List Token.Kind} {value : Expr} :
      Derives operators kinds (.expression value) ->
      Derives operators kinds (.unit (.expression ⟨.anonymous, value⟩))

/-!
# What may follow

An expression ends before a token that would go on with it: an operator, or an
opening parenthesis that would make a call of the name it ends in.
-/

def EndsInIdentifier (kinds : List Token.Kind) : Prop :=
  exists name, kinds.getLast? = some (.identifier name)

/-- The kind after an expression that lets the expression end there. -/
structure Stops (operators : Operators) (kinds : List Token.Kind)
    (next : Token.Kind) : Prop where
  not_operator : ¬ operators.IsOperator next
  not_called : EndsInIdentifier kinds -> next ≠ .character '('

/-- An external declaration ends at its parenthesis whatever follows. -/
def Follows (operators : Operators) (unit : TopLevel) (kinds : List Token.Kind)
    (next : Token.Kind) : Prop :=
  match unit with
  | .definition _ => Stops operators kinds next
  | .external _ => True
  | .expression _ => Stops operators kinds next

theorem Operators.isOperator_iff (operators : Operators) (kind : Token.Kind) :
    operators.IsOperator kind <-> 0 ≤ operators.precedence kind := by
  have hneg : ¬ 0 ≤ notAnOperator := by decide
  constructor
  · rintro ⟨op, q, hkind, hop⟩
    rw [hkind, precedence, hop]
    exact Int32.le_of_lt (precedence?_pos hop)
  · intro h
    cases kind with
    | character c =>
        cases hc : operators.precedence? c with
        | none =>
            rw [precedence, hc] at h
            exact absurd h hneg
        | some q => exact ⟨c, q, rfl, hc⟩
    | endOfInput | define | external | identifier | number => exact absurd h hneg

theorem Operators.not_isOperator_endOfInput (operators : Operators) :
    ¬ operators.IsOperator .endOfInput := by
  rintro ⟨op, precedence, hkind, _⟩
  cases hkind

theorem not_endsInIdentifier_close (kinds : List Token.Kind) :
    ¬ EndsInIdentifier (kinds ++ [.character ')']) := by
  rintro ⟨name, hlast⟩
  rw [List.getLast?_concat] at hlast
  injection hlast with hlast
  cases hlast

theorem endsInIdentifier_append {kinds others : List Token.Kind}
    (hne : others ≠ []) :
    EndsInIdentifier (kinds ++ others) <-> EndsInIdentifier others := by
  unfold EndsInIdentifier
  rw [List.getLast?_append_of_ne_nil _ hne]

theorem endsInIdentifier_cons {kinds : List Token.Kind} (kind : Token.Kind)
    (hne : kinds ≠ []) :
    EndsInIdentifier (kind :: kinds) <-> EndsInIdentifier kinds := by
  rw [← List.singleton_append]
  exact endsInIdentifier_append hne

inductive BeginsOperand : Token.Kind -> Prop where
  | number (value : Binary64) : BeginsOperand (.number value)
  | name (name : String) : BeginsOperand (.identifier name)
  | opening : BeginsOperand (.character '(')

def Phrase.Begins (operators : Operators) (kinds : List Token.Kind) :
    Phrase -> Prop
  | .primary _ | .expression _ | .arguments _ =>
      exists first rest, kinds = first :: rest ∧ BeginsOperand first
  | .operations _ =>
      kinds = [] ∨ exists first rest, kinds = first :: rest ∧
        operators.IsOperator first
  | _ => True

theorem derives_begins {operators : Operators} {kinds : List Token.Kind}
    {phrase : Phrase} (h : Derives operators kinds phrase) :
    phrase.Begins operators kinds := by
  induction h with
  | number value => exact ⟨_, _, rfl, BeginsOperand.number value⟩
  | var name => exact ⟨_, _, rfl, BeginsOperand.name name⟩
  | emptyCall name => exact ⟨_, _, rfl, BeginsOperand.name name⟩
  | call name _ _ => exact ⟨_, _, rfl, BeginsOperand.name name⟩
  | grouping _ _ => exact ⟨_, _, rfl, BeginsOperand.opening⟩
  | noOperation => exact Or.inl rfl
  | operation hop _ _ _ _ => exact Or.inr ⟨_, _, rfl, hop⟩
  | expression _ _ ih _ =>
      rcases ih with ⟨first, rest, hkinds, hfirst⟩
      exact ⟨first, _, by rw [hkinds]; rfl, hfirst⟩
  | lastArgument _ ih => exact ih
  | nextArgument _ _ ih _ =>
      rcases ih with ⟨first, rest, hkinds, hfirst⟩
      exact ⟨first, _, by rw [hkinds]; rfl, hfirst⟩
  | noParameter => trivial
  | parameter name _ _ => trivial
  | prototype name _ _ => trivial
  | definition _ _ _ _ => trivial
  | external _ _ => trivial
  | bare _ _ => trivial

end Kaleidoscope

import Kaleidoscope.Parser.TopLevel
import Kaleidoscope.Proofs.Scanner.Joining

/-!
# Errors and the lookahead

Whatever is asked of a parser, in whatever order and with whatever operators, an
error describes the token that the parser has stopped at.  No construct uses a
token between the place where it fails and the reply to its caller.
-/

namespace Kaleidoscope

/-!
# Lexemes of tokens
-/

namespace Token

def Marked (token : Token) : Prop :=
  token.lexeme = "" <-> token.kind = .endOfInput

theorem ofLexeme_marked (lexeme : List Char) (start stop : Nat) (file : String) :
    (ofLexeme lexeme start stop file).Marked := by
  cases lexeme with
  | nil => exact ⟨fun _ => rfl, fun _ => rfl⟩
  | cons first rest =>
      constructor
      · intro h
        exact absurd h ofLexeme_lexeme_ne_empty
      · intro h
        exact absurd h (kind_ofLexeme_cons_ne_endOfInput first rest)

end Token

theorem Scanner.next_marked (scanner : Scanner) : scanner.next.1.Marked := by
  unfold next
  dsimp only
  split
  · exact Token.ofLexeme_marked _ _ _ _
  · exact Token.ofLexeme_marked _ _ _ _

theorem Scanner.lexes_marked {total : Nat} {file : String} {text : List Char}
    {tokens : List Token} (h : Lexes total file text tokens) {token : Token}
    (hmem : token ∈ tokens) : token.Marked := by
  induction h with
  | done _ =>
      rw [List.mem_singleton.mp hmem]
      exact Token.ofLexeme_marked _ _ _ _
  | token _ _ ih =>
      rcases List.mem_cons.mp hmem with hsame | hmem
      · rw [hsame]
        exact Token.ofLexeme_marked _ _ _ _
      · exact ih hmem

/-- The error describes the lookahead of the parser. -/
structure SyntaxError.Describes (error : SyntaxError) (parser : Parser) : Prop where
  position : error.position = parser.current.span.start
  lexeme : error.lexeme = parser.current.lexeme
  empty_iff : error.lexeme = "" <-> parser.current.kind = .endOfInput

namespace Parser

/-!
# Replies that keep a property

A property that the parser has after every token is a property of the parser
after every reply, if the first parser has it.
-/

def Reply.Keeps (P : Parser -> Prop) : Reply α -> Prop
  | .parsed _ rest => P rest
  | .failed error rest => P rest ∧ exists kind, error = rest.errorHere kind
  | .tooDeep => True

section

variable {P : Parser -> Prop}

theorem keeps_andThen {reply : Reply α} {next : α -> Parser -> Reply β}
    (h : reply.Keeps P) (hnext : forall value rest, P rest -> (next value rest).Keeps P) :
    (reply.andThen next).Keeps P := by
  cases reply with
  | parsed value rest => exact hnext value rest h
  | failed error rest => exact h
  | tooDeep => trivial

theorem keeps_map {reply : Reply α} {f : α -> β} (h : reply.Keeps P) :
    (reply.map f).Keeps P :=
  keeps_andThen h fun _ _ hrest => hrest

theorem keeps_fail {parser : Parser} (h : P parser) (kind : SyntaxError.Kind) :
    (parser.fail kind : Reply α).Keeps P :=
  ⟨h, kind, rfl⟩

variable (hadvance : forall parser : Parser, P parser -> P parser.advance)
include hadvance

theorem keeps_expect {parser : Parser} (h : P parser) (c : Char) (kind : SyntaxError.Kind) :
    (parser.expect c kind).Keeps P := by
  unfold expect
  split
  · exact hadvance parser h
  · exact keeps_fail h kind

end

structure KeepsAt (P : Parser -> Prop) (depth : Nat) : Prop where
  expression {parser : Parser} : P parser -> (expressionWithin depth parser).Keeps P
  primary {parser : Parser} : P parser -> (primaryWithin depth parser).Keeps P
  grouping {parser : Parser} : P parser -> (groupingWithin depth parser).Keeps P
  reference (name : String) {parser : Parser} :
    P parser -> (referenceWithin name depth parser).Keeps P
  arguments {parser : Parser} : P parser -> (argumentsWithin depth parser).Keeps P
  operations (least : Int32) (left : Expr) {parser : Parser} :
    P parser -> (operationsWithin least left depth parser).Keeps P

namespace KeepsAt

variable {P : Parser -> Prop} {depth : Nat} {parser : Parser}
  (hadvance : forall parser : Parser, P parser -> P parser.advance)
  (ih : KeepsAt P depth) (h : P parser)
include ih h

theorem expression_succ : (expressionWithin (depth + 1) parser).Keeps P := by
  unfold expressionWithin
  exact keeps_andThen (ih.primary h) fun left rest hrest => ih.operations 0 left hrest

include hadvance

theorem primary_succ : (primaryWithin (depth + 1) parser).Keeps P := by
  unfold primaryWithin
  split
  · exact ih.reference _ h
  · exact hadvance parser h
  · exact ih.grouping h
  · exact keeps_fail h .unknownToken

theorem grouping_succ : (groupingWithin (depth + 1) parser).Keeps P := by
  unfold groupingWithin
  apply keeps_andThen (ih.expression (hadvance parser h))
  intro content rest hrest
  exact keeps_map (keeps_expect hadvance hrest ')' .expectedCloseParen)

theorem reference_succ (name : String) :
    (referenceWithin name (depth + 1) parser).Keeps P := by
  have hname := hadvance parser h
  have hinside := hadvance parser.advance hname
  unfold referenceWithin
  dsimp only
  split
  · split
    · exact hadvance _ hinside
    · exact keeps_andThen (ih.arguments hinside) fun _ rest hrest => hadvance rest hrest
  · exact hname

theorem arguments_succ : (argumentsWithin (depth + 1) parser).Keeps P := by
  unfold argumentsWithin
  apply keeps_andThen (ih.expression h)
  intro argument rest hrest
  split
  · exact hrest
  · apply keeps_andThen (keeps_expect hadvance hrest ',' .expectedArgumentDelimiter)
    intro comma after hafter
    exact keeps_map (ih.arguments hafter)

theorem operations_succ (least : Int32) (left : Expr) :
    (operationsWithin least left (depth + 1) parser).Keeps P := by
  unfold operationsWithin
  split
  · exact h
  · split
    · apply keeps_andThen (ih.primary (hadvance parser h))
      intro right rest hrest
      split
      · apply keeps_andThen (ih.operations _ right hrest)
        intro wider after hafter
        exact ih.operations least _ hafter
      · exact ih.operations least _ hrest
    · exact hadvance parser h

end KeepsAt

section

variable {P : Parser -> Prop}
  (hadvance : forall parser : Parser, P parser -> P parser.advance)
include hadvance

theorem keepsAt (depth : Nat) : KeepsAt P depth := by
  induction depth with
  | zero => constructor <;> intros <;> trivial
  | succ depth ih =>
      constructor
      · exact ih.expression_succ
      · exact ih.primary_succ hadvance
      · exact ih.grouping_succ hadvance
      · intro name parser h
        exact ih.reference_succ hadvance h name
      · exact ih.arguments_succ hadvance
      · intro least left parser h
        exact ih.operations_succ hadvance h least left

theorem parametersWithin_keeps (depth : Nat) {parser : Parser} (h : P parser) :
    (parametersWithin depth parser).Keeps P := by
  induction depth generalizing parser with
  | zero => trivial
  | succ depth ih =>
      unfold parametersWithin
      split
      · exact keeps_map (ih (hadvance parser h))
      · exact h

theorem prototypeWithin_keeps (depth : Nat) {parser : Parser} (h : P parser) :
    (prototypeWithin depth parser).Keeps P := by
  have hname := hadvance parser h
  unfold prototypeWithin
  split
  · dsimp only
    split
    · apply keeps_andThen (parametersWithin_keeps hadvance depth (hadvance _ hname))
      intro parameters rest hrest
      exact keeps_map (keeps_expect hadvance hrest ')' .expectedPrototypeCloseParen)
    · exact keeps_fail hname .expectedPrototypeOpenParen
  · exact keeps_fail h .expectedFunctionName

theorem definitionWithin_keeps (depth : Nat) {parser : Parser} (h : P parser) :
    (definitionWithin depth parser).Keeps P := by
  apply keeps_andThen (prototypeWithin_keeps hadvance depth (hadvance parser h))
  intro prototype rest hrest
  exact keeps_map ((keepsAt hadvance depth).expression hrest)

theorem topLevelWithin_keeps (depth : Nat) {parser : Parser} (h : P parser) :
    (topLevelWithin depth parser).Keeps P := by
  unfold topLevelWithin
  split
  · exact keeps_map (definitionWithin_keeps hadvance depth h)
  · exact keeps_map (prototypeWithin_keeps hadvance depth (hadvance parser h))
  · exact keeps_map (keeps_map ((keepsAt hadvance depth).expression h))

end

/-!
# Requests
-/

/-- What can be asked of a parser. -/
inductive Request where
  | advance
  | install (op : Char) (precedence : Int32)
  | expect (c : Char) (kind : SyntaxError.Kind)
  | expression
  | primary
  | grouping
  | reference (name : String)
  | operations (least : Int32) (left : Expr)
  | prototype
  | definition
  | external
  | bareExpression
  | topLevel

def failureOf (result : Except SyntaxError α × Parser) : Option SyntaxError × Parser :=
  match result with
  | (.ok _, rest) => (none, rest)
  | (.error error, rest) => (some error, rest)

/-- The error that a parser answers a request with, if any, and the parser after it. -/
def perform (parser : Parser) : Request -> Option SyntaxError × Parser
  | .advance => (none, parser.advance)
  | .install op precedence => (none, parser.install op precedence)
  | .expect c kind => failureOf (parser.expectCharacter c kind)
  | .expression => failureOf parser.expression
  | .primary => failureOf parser.primary
  | .grouping => failureOf parser.grouping
  | .reference name => failureOf (parser.reference name)
  | .operations least left => failureOf (parser.operations least left)
  | .prototype => failureOf parser.prototype
  | .definition => failureOf parser.definition
  | .external => failureOf parser.external
  | .bareExpression => failureOf parser.bareExpression
  | .topLevel => failureOf parser.topLevel

def after (parser : Parser) (requests : List Request) : Parser :=
  requests.foldl (fun parser request => (parser.perform request).2) parser

section

variable {P : Parser -> Prop}

def Answers (P : Parser -> Prop) (answer : Option SyntaxError × Parser) : Prop :=
  P answer.2 ∧ forall error, answer.1 = some error ->
    exists kind, error = answer.2.errorHere kind

theorem answers_settle {start : Parser} {reply : Reply α} (hstart : P start)
    (h : reply.Keeps P) : Answers P (failureOf (reply.settle start)) := by
  cases reply with
  | parsed value rest =>
      refine ⟨h, fun error herror => ?_⟩
      cases herror
  | failed error rest =>
      rcases h with ⟨hrest, kind, herror⟩
      refine ⟨hrest, fun other hother => ⟨kind, ?_⟩⟩
      injection hother with hother
      rw [← hother, herror]
      rfl
  | tooDeep =>
      refine ⟨hstart, fun error herror => ⟨.unknownToken, ?_⟩⟩
      injection herror with herror
      exact herror.symm

theorem perform_answers (hadvance : forall parser : Parser, P parser -> P parser.advance)
    (hinstall : forall (parser : Parser) (op : Char) (precedence : Int32),
      P parser -> P (parser.install op precedence))
    {parser : Parser} (h : P parser) (request : Request) :
    Answers P (parser.perform request) := by
  have hkeeps := keepsAt hadvance parser.depth
  cases request with
  | advance =>
      refine ⟨hadvance parser h, fun error herror => ?_⟩
      cases herror
  | install op precedence =>
      refine ⟨hinstall parser op precedence h, fun error herror => ?_⟩
      cases herror
  | expect c kind => exact answers_settle h (keeps_expect hadvance h c kind)
  | expression => exact answers_settle h (hkeeps.expression h)
  | primary => exact answers_settle h (hkeeps.primary h)
  | grouping => exact answers_settle h (hkeeps.grouping h)
  | reference name => exact answers_settle h (hkeeps.reference name h)
  | operations least left => exact answers_settle h (hkeeps.operations least left h)
  | prototype => exact answers_settle h (prototypeWithin_keeps hadvance _ h)
  | definition => exact answers_settle h (definitionWithin_keeps hadvance _ h)
  | external => exact answers_settle h (prototypeWithin_keeps hadvance _ (hadvance parser h))
  | bareExpression => exact answers_settle h (keeps_map (hkeeps.expression h))
  | topLevel => exact answers_settle h (topLevelWithin_keeps hadvance _ h)

theorem after_keeps (hadvance : forall parser : Parser, P parser -> P parser.advance)
    (hinstall : forall (parser : Parser) (op : Char) (precedence : Int32),
      P parser -> P (parser.install op precedence))
    {parser : Parser} (h : P parser) (requests : List Request) :
    P (parser.after requests) := by
  induction requests generalizing parser with
  | nil => exact h
  | cons request requests ih =>
      exact ih (perform_answers hadvance hinstall h request).left

end

/-!
# The lookahead
-/

def Scanned (parser : Parser) : Prop :=
  exists scanner : Scanner, parser.current = scanner.next.1

theorem after_scanned (scanner : Scanner) (operators : Operators)
    (requests : List Request) :
    (after { start scanner with operators } requests).Scanned :=
  after_keeps (P := Scanned) (fun parser _ => ⟨parser.scanner, rfl⟩)
    (fun _ _ _ h => h) ⟨scanner, rfl⟩ requests

theorem marked_of_scanned {parser : Parser} (h : parser.Scanned) :
    parser.current.Marked := by
  rcases h with ⟨scanner, hcurrent⟩
  rw [hcurrent]
  exact scanner.next_marked

theorem describes_of_perform {scanner : Scanner} {operators : Operators}
    {requests : List Request} {request : Request} {error : SyntaxError} {rest : Parser}
    (h : (after { start scanner with operators } requests).perform request =
      (some error, rest)) : error.Describes rest := by
  have hmarked := marked_of_scanned (after_scanned scanner operators requests)
  have hanswers := perform_answers (P := fun parser => parser.current.Marked)
    (fun parser _ => parser.scanner.next_marked) (fun _ _ _ h => h) hmarked request
  rw [h] at hanswers
  rcases hanswers with ⟨hrest, herror⟩
  rcases herror error rfl with ⟨kind, hkind⟩
  rw [hkind]
  exact ⟨rfl, rfl, hrest⟩

end Parser
end Kaleidoscope

import Kaleidoscope.Proofs.Grammar.Soundness
import Kaleidoscope.Proofs.Parser.Lookahead
import Kaleidoscope.Proofs.Tree.Spelling

/-!
# Units that a parser returns

Whatever was asked of a parser before, a unit that it returns can be written with
its operators, and only a bare expression has the anonymous prototype.  The source
form of such a unit stands on one line and has no comment in it.
-/

namespace Kaleidoscope
namespace Parser

/-!
# Kinds that are read
-/

theorem advance_scanned (parser : Parser) : parser.advance.Scanned :=
  ⟨parser.scanner, rfl⟩

theorem reads_allRead {parser rest : Parser} {kinds : List Token.Kind}
    (h : Reads parser kinds rest) (hscanned : parser.Scanned) : AllRead kinds := by
  induction h with
  | nothing parser =>
      intro kind hmem
      cases hmem
  | @token parser rest kinds hkind _ ih =>
      rcases hscanned with ⟨scanner, hcurrent⟩
      rw [hcurrent] at hkind ⊢
      intro kind hmem
      rcases List.mem_cons.mp hmem with hsame | hmem
      · rw [hsame]
        exact Scanner.next_isRead hkind
      · exact ih parser.advance_scanned kind hmem

theorem reads_scanned {parser rest : Parser} {kinds : List Token.Kind}
    (h : Reads parser kinds rest) (hscanned : parser.Scanned) : rest.Scanned := by
  induction h with
  | nothing _ => exact hscanned
  | @token parser rest kinds _ _ ih => exact ih parser.advance_scanned

theorem reaches_scanned {parser rest : Parser} (h : parser.Reaches rest)
    (hscanned : parser.Scanned) : rest.Scanned := by
  rcases h with ⟨kinds, hreads⟩
  exact reads_scanned hreads hscanned

/-!
# Constructs that are returned
-/

theorem topLevel_writable {parser rest : Parser} {unit : TopLevel}
    (hscanned : parser.Scanned) (h : parser.topLevel = (.ok unit, rest)) :
    unit.Writable parser.operators := by
  rcases topLevel_sound h with ⟨kinds, hreads, hderives, _⟩
  exact derives_writable hderives (reads_allRead hreads hscanned)

theorem expression_writable {parser rest : Parser} {value : Expr}
    (hscanned : parser.Scanned) (h : parser.expression = (.ok value, rest)) :
    value.Writable parser.operators := by
  rcases expression_stops h with ⟨kinds, hreads, hderives, _⟩
  exact derives_writable hderives (reads_allRead hreads hscanned)

theorem prototype_readable {parser rest : Parser} {value : Prototype}
    (hscanned : parser.Scanned) (h : parser.prototype = (.ok value, rest)) :
    value.Readable ∧ parser.Reaches rest := by
  rcases prototype_sound h with ⟨kinds, hreads, hderives⟩
  exact ⟨derives_writable hderives (reads_allRead hreads hscanned), kinds, hreads⟩

theorem definition_writable {parser rest : Parser} {content : Definition}
    (h : parser.definition = (.ok content, rest)) :
    (TopLevel.definition content).Writable parser.operators := by
  rw [definition_eq] at h
  rcases Result.followedBy_eq_ok h with ⟨prototype, middle, hprototype, hrest⟩
  rcases Result.followedBy_eq_ok hrest with ⟨body, last, hbody, hlast⟩
  injection hlast with hcontent _
  injection hcontent with hcontent
  rcases prototype_readable parser.advance_scanned hprototype with ⟨hreadable, hreaches⟩
  have hwritable := expression_writable
    (reaches_scanned hreaches parser.advance_scanned) hbody
  rw [reaches_operators hreaches] at hwritable
  rw [← hcontent]
  exact ⟨hreadable, hwritable⟩

theorem external_writable {parser rest : Parser} {prototype : Prototype}
    (h : parser.external = (.ok prototype, rest)) :
    (TopLevel.external prototype).Writable parser.operators := by
  rw [external_eq] at h
  exact (prototype_readable parser.advance_scanned h).left

theorem bareExpression_writable {parser rest : Parser} {content : Definition}
    (hscanned : parser.Scanned) (h : parser.bareExpression = (.ok content, rest)) :
    (TopLevel.expression content).Writable parser.operators := by
  rw [bareExpression_eq] at h
  rcases Result.followedBy_eq_ok h with ⟨body, last, hbody, hlast⟩
  injection hlast with hcontent _
  injection hcontent with hcontent
  rw [← hcontent]
  exact ⟨rfl, expression_writable hscanned hbody⟩

/-!
# Requests for units
-/

inductive UnitRequest where
  | topLevel
  | definition
  | external
  | bareExpression

def unit (parser : Parser) : UnitRequest -> Result TopLevel
  | .topLevel => parser.topLevel
  | .definition =>
      Result.followedBy parser.definition fun content rest => (.ok (.definition content), rest)
  | .external =>
      Result.followedBy parser.external fun prototype rest => (.ok (.external prototype), rest)
  | .bareExpression =>
      Result.followedBy parser.bareExpression fun content rest =>
        (.ok (.expression content), rest)

theorem followedBy_map_eq_ok {result : Result α} {f : α -> β} {value : β} {rest : Parser}
    (h : (result.followedBy fun value rest => (.ok (f value), rest)) = (.ok value, rest)) :
    exists first, result = (.ok first, rest) ∧ f first = value := by
  rcases Result.followedBy_eq_ok h with ⟨first, middle, hfirst, hlast⟩
  injection hlast with hvalue hrest
  injection hvalue with hvalue
  exact ⟨first, by rw [hfirst, hrest], hvalue⟩

theorem unit_writable {parser rest : Parser} {request : UnitRequest} {unit : TopLevel}
    (hscanned : parser.Scanned) (h : parser.unit request = (.ok unit, rest)) :
    unit.Writable parser.operators := by
  cases request with
  | topLevel => exact topLevel_writable hscanned h
  | definition =>
      rcases followedBy_map_eq_ok h with ⟨content, hcontent, hunit⟩
      rw [← hunit]
      exact definition_writable hcontent
  | external =>
      rcases followedBy_map_eq_ok h with ⟨prototype, hprototype, hunit⟩
      rw [← hunit]
      exact external_writable hprototype
  | bareExpression =>
      rcases followedBy_map_eq_ok h with ⟨content, hcontent, hunit⟩
      rw [← hunit]
      exact bareExpression_writable hscanned hcontent

end Parser

/-!
# Texts on one line
-/

/-- The text has no line feed and no beginning of a comment in it. -/
def IsPlain (text : List Char) : Prop :=
  forall c, c ∈ text -> c ≠ '\n' ∧ c ≠ '#'

@[simp] theorem isPlain_nil : IsPlain [] :=
  List.forall_mem_nil _

@[simp] theorem isPlain_cons {c : Char} {text : List Char} :
    IsPlain (c :: text) <-> (c ≠ '\n' ∧ c ≠ '#') ∧ IsPlain text :=
  List.forall_mem_cons

@[simp] theorem isPlain_append {text others : List Char} :
    IsPlain (text ++ others) <-> IsPlain text ∧ IsPlain others :=
  List.forall_mem_append

theorem isPlain_of_hasKind {lexeme : List Char} {kind : Token.Kind}
    (h : Token.HasKind lexeme kind) : IsPlain lexeme := by
  have hfeed {c : Char} (hc : ¬ IsBlank c) : c ≠ '\n' := by
    intro hsame
    exact hc (by simp [hsame, IsBlank])
  rcases Token.isLexeme_of_hasKind h with ⟨first, rest, hcons, hlexeme⟩
  rw [hcons, isPlain_cons]
  refine ⟨⟨hfeed hlexeme.not_blank, hlexeme.not_hash⟩, ?_⟩
  intro c hc
  rcases Token.not_isBlank_of_continues (hlexeme.continues hc) with ⟨hblank, hhash⟩
  exact ⟨hfeed hblank, hhash⟩

section

variable {operators : Operators}

mutual

theorem Expr.isPlain_sourceForm : (value : Expr) -> value.Writable operators ->
    IsPlain value.sourceForm.toList
  | .number value, h =>
      isPlain_of_hasKind (Binary64.hasKind_sourceForm ((Binary64.readable_iff value).mpr h))
  | .var _, h => isPlain_of_hasKind h
  | .binary op left right, h => by
      rcases h with ⟨_, hop, hleft, hright⟩
      rcases isPlain_cons.mp (isPlain_of_hasKind hop) with ⟨hplain, _⟩
      rw [Expr.toList_sourceForm_binary]
      simp [hplain, left.isPlain_sourceForm hleft, right.isPlain_sourceForm hright]
  | .call callee arguments, h => by
      rw [Expr.toList_sourceForm_call]
      simp [isPlain_of_hasKind h.left, Expr.isPlain_argumentForms arguments h.right]

theorem Expr.isPlain_argumentForms : (arguments : List Expr) ->
    Expr.AllWritable operators arguments -> IsPlain (Expr.argumentForms arguments).toList
  | [], _ => isPlain_nil
  | [argument], h => by
      rw [Expr.argumentForms]
      exact argument.isPlain_sourceForm h.left
  | argument :: next :: rest, h => by
      rw [Expr.toList_argumentForms_cons]
      simp [argument.isPlain_sourceForm h.left,
        Expr.isPlain_argumentForms (next :: rest) h.right]

end

theorem isPlain_parameters {names : List String}
    (h : forall name, name ∈ names -> IsName name) :
    IsPlain (" ".intercalate names).toList := by
  induction names with
  | nil => exact isPlain_nil
  | cons name names ih =>
      have hname := isPlain_of_hasKind (h name List.mem_cons_self)
      have hothers := ih fun other hother => h other (List.mem_cons_of_mem name hother)
      cases names with
      | nil =>
          rw [String.intercalate_singleton]
          exact hname
      | cons next names =>
          rw [toList_parameters_cons, isPlain_append, isPlain_cons]
          exact ⟨hname, by decide, hothers⟩

theorem Prototype.isPlain_sourceForm {prototype : Prototype} (h : prototype.Readable) :
    IsPlain prototype.sourceForm.toList := by
  have hparameters := isPlain_parameters fun name hname => h.parameters hname
  rw [toList_sourceForm, isPlain_append, isPlain_cons, isPlain_append]
  exact ⟨isPlain_of_hasKind h.name, by decide, hparameters, by simp⟩

theorem TopLevel.isPlain_sourceForm {unit : TopLevel} (h : unit.Writable operators) :
    IsPlain unit.sourceForm.toList := by
  cases unit with
  | definition content =>
      rw [toList_sourceForm_definition h.left.name]
      simp [Prototype.isPlain_sourceForm h.left, content.body.isPlain_sourceForm h.right]
  | external prototype =>
      rw [toList_sourceForm_external]
      simp [Prototype.isPlain_sourceForm h]
  | expression content =>
      rw [sourceForm_expression h.left]
      exact content.body.isPlain_sourceForm h.right

end

/-!
# Well-formed units
-/

/-- A unit as the parser builds it with the operators. -/
structure TopLevel.WellFormed (operators : Operators) (unit : TopLevel) : Prop where
  parts : unit.Writable operators
  anonymous_iff :
    unit.prototype.isAnonymous = true <-> exists content, unit = .expression content
  one_line : '\n' ∉ unit.sourceForm.toList
  no_comment : '#' ∉ unit.sourceForm.toList

theorem TopLevel.isAnonymous_iff {operators : Operators} {unit : TopLevel}
    (h : unit.Writable operators) :
    unit.prototype.isAnonymous = true <-> exists content, unit = .expression content := by
  cases unit with
  | definition content =>
      apply iff_of_false
      · rw [prototype, not_isAnonymous_of_isName h.left.name]
        exact Bool.false_ne_true
      · rintro ⟨content, hsame⟩
        cases hsame
  | external prototype =>
      apply iff_of_false
      · rw [TopLevel.prototype, not_isAnonymous_of_isName h.name]
        exact Bool.false_ne_true
      · rintro ⟨content, hsame⟩
        cases hsame
  | expression content =>
      apply iff_of_true
      · rw [prototype, h.left]
        rfl
      · exact ⟨content, rfl⟩

theorem TopLevel.wellFormed_of_writable {operators : Operators} {unit : TopLevel}
    (h : unit.Writable operators) : unit.WellFormed operators where
  parts := h
  anonymous_iff := isAnonymous_iff h
  one_line hmem := (isPlain_sourceForm h _ hmem).left rfl
  no_comment hmem := (isPlain_sourceForm h _ hmem).right rfl

namespace Parser

/--
A unit that a parser of any text and any table returns is well formed, whatever was
asked of the parser before and however often it failed.  The operators are those of
the table at that time.
-/
theorem unit_wellFormed {scanner : Scanner} {operators : Operators}
    {requests : List Request} {request : UnitRequest} {unit : TopLevel} {rest : Parser}
    (h : (after { start scanner with operators } requests).unit request =
      (.ok unit, rest)) :
    unit.WellFormed (after { start scanner with operators } requests).operators :=
  TopLevel.wellFormed_of_writable
    (unit_writable (after_scanned scanner operators requests) h)

def afterFailures : Parser :=
  after { start (.start (.ofString "f 1 # g(\n) extern g(x y) x ! .5 ( y") "") with
      operators := Operators.empty.install '(' 5 }
    [.definition, .install '!' 9, .topLevel, .advance]

theorem unit_wellFormed_definition :
    exists unit rest,
      afterFailures.unit .definition = (.ok unit, rest) ∧
        unit = .definition ⟨⟨"g", ["x", "y"]⟩,
          .binary '(' (.binary '!' (.var "x") (.number (Numeral.value ".5".toList)))
            (.var "y")⟩ ∧
        unit.WellFormed afterFailures.operators := by
  have hvalue : (afterFailures.unit .definition).1.toOption =
      some (.definition ⟨⟨"g", ["x", "y"]⟩,
        .binary '(' (.binary '!' (.var "x") (.number (Numeral.value ".5".toList)))
          (.var "y")⟩) := by
    decide +kernel
  cases hresult : afterFailures.unit .definition with
  | mk result rest =>
      rw [hresult] at hvalue
      cases result with
      | error error => cases hvalue
      | ok unit =>
          injection hvalue with hunit
          exact ⟨unit, rest, rfl, hunit, unit_wellFormed hresult⟩

end Parser
end Kaleidoscope

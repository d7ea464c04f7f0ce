import Kaleidoscope.Proofs.Parser.Lookahead
import Kaleidoscope.Proofs.Parser.Simulation
import Kaleidoscope.Proofs.Scanner.Spelling

/-!
# The order of precedences

A parser asks its operator table only which of two operators binds tighter.  So
an entry that no token can ask for, or whose precedence is not positive, does
nothing, and precedences may be replaced by any others in the same order.
-/

namespace Kaleidoscope
namespace Operators

/-!
# Effective entries
-/

/-- The latest entry for an ASCII character that is read as a token; it is positive. -/
structure Effective (operators : Operators) (op : Char) (precedence : Int32) : Prop where
  ascii : isAscii op = true
  scanned : exists scanner : Scanner, scanner.next.1.kind = .character op
  latest : operators.entries.lookup op = some precedence
  positive : 0 < precedence

/-- The same operators have effective entries, and these are in the same order. -/
structure OrderedAlike (operators others : Operators) : Prop where
  effective (op : Char) :
    (exists precedence, operators.Effective op precedence) <->
      exists precedence, others.Effective op precedence
  order {op tighter : Char} {p q p' q' : Int32} :
    operators.Effective op p -> operators.Effective tighter q ->
      others.Effective op p' -> others.Effective tighter q' -> (p < q <-> p' < q')

theorem precedence?_eq_some_iff {operators : Operators} {op : Char} {p : Int32} :
    operators.precedence? op = some p <->
      isAscii op = true ∧ operators.entries.lookup op = some p ∧ 0 < p := by
  unfold precedence?
  by_cases hascii : isAscii op = true
  · rw [if_pos hascii, Option.filter_eq_some_iff, decide_eq_true_iff]
    exact ⟨fun h => ⟨hascii, h⟩, And.right⟩
  · rw [if_neg hascii]
    exact iff_of_false (Option.some_ne_none p).symm fun h => hascii h.left

theorem precedence?_of_effective {operators : Operators} {op : Char} {p : Int32}
    (h : operators.Effective op p) : operators.precedence? op = some p :=
  precedence?_eq_some_iff.mpr ⟨h.ascii, h.latest, h.positive⟩

theorem effective_of_scanned {operators : Operators} {scanner : Scanner} {op : Char}
    {p : Int32} (hkind : scanner.next.1.kind = .character op)
    (h : operators.precedence? op = some p) : operators.Effective op p := by
  rcases precedence?_eq_some_iff.mp h with ⟨hascii, hlatest, hpositive⟩
  exact ⟨hascii, ⟨scanner, hkind⟩, hlatest, hpositive⟩

/-!
# Inert entries
-/

/-- An entry that no token asks for, or that takes a character for no operator. -/
def IsInert (op : Char) (precedence : Int32) : Prop :=
  precedence ≤ 0 ∨ isAscii op = false ∨
    ¬ exists scanner : Scanner, scanner.next.1.kind = .character op

theorem lookup_install (operators : Operators) (op : Char) (precedence : Int32) :
    (operators.install op precedence).entries.lookup op = some precedence :=
  List.lookup_cons_self

theorem lookup_install_of_ne {op other : Char} (hne : other ≠ op) (operators : Operators)
    (precedence : Int32) :
    (operators.install op precedence).entries.lookup other = operators.entries.lookup other := by
  rw [install, List.lookup_cons, beq_false_of_ne hne]

theorem not_effective_install {op : Char} {precedence : Int32} (h : IsInert op precedence)
    (operators : Operators) (p : Int32) :
    ¬ (operators.install op precedence).Effective op p := by
  intro heffective
  have hlatest := heffective.latest
  rw [lookup_install] at hlatest
  injection hlatest with hsame
  rcases h with hle | hascii | hscanned
  · rw [hsame] at hle
    exact Int32.not_lt.mpr hle heffective.positive
  · have hpositive := heffective.ascii
    rw [hascii] at hpositive
    cases hpositive
  · exact hscanned heffective.scanned

theorem effective_install_iff {operators : Operators} {op : Char} {precedence : Int32}
    (hnone : forall p, ¬ operators.Effective op p) (h : IsInert op precedence)
    (other : Char) (p : Int32) :
    operators.Effective other p <-> (operators.install op precedence).Effective other p := by
  by_cases hsame : other = op
  · rw [hsame]
    exact iff_of_false (hnone p) (not_effective_install h operators p)
  · have hlookup := lookup_install_of_ne hsame operators precedence
    constructor
    · rintro ⟨hascii, hscanned, hlatest, hpositive⟩
      exact ⟨hascii, hscanned, hlookup.trans hlatest, hpositive⟩
    · rintro ⟨hascii, hscanned, hlatest, hpositive⟩
      exact ⟨hascii, hscanned, hlookup.symm.trans hlatest, hpositive⟩

theorem effective_unique {operators : Operators} {op : Char} {p q : Int32}
    (hp : operators.Effective op p) (hq : operators.Effective op q) : p = q :=
  Option.some.inj (hp.latest.symm.trans hq.latest)

theorem orderedAlike_install {operators : Operators} {op : Char} {precedence : Int32}
    (hnone : forall p, ¬ operators.Effective op p) (h : IsInert op precedence) :
    operators.OrderedAlike (operators.install op precedence) where
  effective other := exists_congr (effective_install_iff hnone h other)
  order hop htighter hop' htighter' := by
    have hsame := effective_unique hop ((effective_install_iff hnone h _ _).mpr hop')
    have hsame' := effective_unique htighter ((effective_install_iff hnone h _ _).mpr htighter')
    rw [hsame, hsame']

/-!
# Ranks

The precedences that one token has in two tables are not compared with each
other, but each with the precedences of other tokens in its own table.
-/

inductive SameRank (operators others : Operators) : Int32 -> Int32 -> Prop where
  | none : SameRank operators others notAnOperator notAnOperator
  | effective {op : Char} {p p' : Int32} :
      operators.Effective op p -> others.Effective op p' ->
      SameRank operators others p p'

section

variable {operators others : Operators} (h : operators.OrderedAlike others)
include h

theorem sameRank_of_scanned (scanner : Scanner) :
    SameRank operators others (operators.precedence scanner.next.1.kind)
      (others.precedence scanner.next.1.kind) := by
  cases hkind : scanner.next.1.kind with
  | endOfInput | define | external | identifier | number => exact SameRank.none
  | character op =>
      simp only [precedence]
      cases hop : operators.precedence? op with
      | some p =>
          have heffective := effective_of_scanned hkind hop
          rcases (h.effective op).mp ⟨p, heffective⟩ with ⟨p', heffective'⟩
          rw [precedence?_of_effective heffective']
          exact SameRank.effective heffective heffective'
      | none =>
          cases hop' : others.precedence? op with
          | none => exact SameRank.none
          | some p' =>
              have heffective' := effective_of_scanned hkind hop'
              rcases (h.effective op).mpr ⟨p', heffective'⟩ with ⟨p, heffective⟩
              rw [precedence?_of_effective heffective] at hop
              cases hop

omit h in
theorem sameRank_neg {p p' : Int32} (hp : SameRank operators others p p') :
    p < 0 <-> p' < 0 := by
  cases hp with
  | none => exact Iff.rfl
  | effective heffective heffective' =>
      exact iff_of_false (Int32.lt_asymm heffective.positive)
        (Int32.lt_asymm heffective'.positive)

theorem sameRank_lt {p p' q q' : Int32} (hp : SameRank operators others p p')
    (hq : SameRank operators others q q') : p < q <-> p' < q' := by
  have hneg : notAnOperator < 0 := by decide
  cases hp with
  | none =>
      cases hq with
      | none => exact Iff.rfl
      | effective hop hop' =>
          exact iff_of_true (Int32.lt_trans hneg hop.positive)
            (Int32.lt_trans hneg hop'.positive)
  | effective hop hop' =>
      cases hq with
      | none =>
          exact iff_of_false (Int32.lt_asymm (Int32.lt_trans hneg hop.positive))
            (Int32.lt_asymm (Int32.lt_trans hneg hop'.positive))
      | effective htighter htighter' => exact h.order hop htighter hop' htighter'

end

/-!
# Comparing tables

Only the characters that have entries need to be compared.
-/

def effective? (operators : Operators) (op : Char) : Option Int32 :=
  if Cursor.layoutStep? false op = none ∧ Token.Kind.ofLexeme [op] = .character op then
    operators.precedence? op
  else
    none

theorem scanned_iff {op : Char} :
    (exists scanner : Scanner, scanner.next.1.kind = .character op) <->
      Cursor.layoutStep? false op = none ∧ Token.Kind.ofLexeme [op] = .character op := by
  rw [Cursor.layoutStep?_eq_none_iff]
  constructor
  · rintro ⟨scanner, hkind⟩
    have hread : scanner.next.1.kind.IsRead :=
      Scanner.next_isRead (by rw [hkind]; exact Token.Kind.noConfusion)
    rw [hkind] at hread
    rcases hread with ⟨lexeme, hlexeme⟩
    cases hlexeme with
    | character hblank hhash hpoint halpha hdigit =>
        refine ⟨⟨hblank, hhash⟩, ?_⟩
        simp [Token.Kind.ofLexeme, Token.isNumberPart, halpha, hdigit, hpoint]
  · rintro ⟨⟨hblank, hhash⟩, hkind⟩
    have hlexeme := Token.hasKind_ofLexeme hblank hhash (List.forall_mem_nil _)
    rw [hkind] at hlexeme
    have hspells : Spells (String.ofList [op]).toList [.character op] := by
      rw [String.toList_ofList]
      exact spells_character hlexeme (Spells.done rfl)
    have htokens : (tokenize (String.ofList [op]) "").map Token.kind = _ :=
      tokenize_of_spells hspells
    exact ⟨.start (.ofString (String.ofList [op])) "",
      Parser.current_of_kinds (by rw [Parser.start_tokens]; exact htokens)⟩

theorem effective?_eq_some_iff {operators : Operators} {op : Char} {p : Int32} :
    operators.effective? op = some p <-> operators.Effective op p := by
  unfold effective?
  constructor
  · intro h
    split at h
    · next hscanned =>
        rcases scanned_iff.mpr hscanned with ⟨scanner, hkind⟩
        exact effective_of_scanned hkind h
    · cases h
  · intro h
    rw [if_pos (scanned_iff.mp h.scanned)]
    exact precedence?_of_effective h

def keys (operators : Operators) : List Char :=
  operators.entries.map Prod.fst

theorem mem_keys {operators : Operators} {op : Char} {p : Int32}
    (h : operators.Effective op p) : op ∈ operators.keys := by
  rcases List.lookup_eq_some_iff.mp h.latest with ⟨before, after, hentries, _⟩
  rw [keys, hentries, List.map_append, List.map_cons]
  exact List.mem_append_right _ List.mem_cons_self

def agreeOn (operators others : Operators) (op : Char) : Bool :=
  match operators.effective? op, others.effective? op with
  | none, none => true
  | some p, some p' =>
      operators.keys.all fun tighter =>
        match operators.effective? tighter, others.effective? tighter with
        | some q, some q' => decide (p < q) == decide (p' < q')
        | _, _ => true
  | _, _ => false

section

variable {operators others : Operators} {op : Char}

theorem isSome_effective?_iff :
    (operators.effective? op).isSome = true <-> exists p, operators.Effective op p := by
  rw [Option.isSome_iff_exists]
  exact exists_congr fun p => effective?_eq_some_iff

theorem agreeOn_of_orderedAlike (h : operators.OrderedAlike others) (op : Char) :
    operators.agreeOn others op = true := by
  have hsome : (operators.effective? op).isSome = (others.effective? op).isSome := by
    rw [Bool.eq_iff_iff, isSome_effective?_iff, isSome_effective?_iff]
    exact h.effective op
  unfold agreeOn
  cases hop : operators.effective? op with
  | none =>
      rw [hop] at hsome
      rw [Option.isNone_iff_eq_none.mp (Option.isSome_eq_false_iff.mp hsome.symm)]
  | some p =>
      rw [hop] at hsome
      rcases Option.isSome_iff_exists.mp hsome.symm with ⟨p', hop'⟩
      rw [hop']
      apply List.all_eq_true.mpr
      intro tighter _
      split
      · next q q' hq hq' =>
          rw [beq_iff_eq, decide_eq_decide]
          exact h.order (effective?_eq_some_iff.mp hop) (effective?_eq_some_iff.mp hq)
            (effective?_eq_some_iff.mp hop') (effective?_eq_some_iff.mp hq')
      · rfl

theorem isSome_eq_of_agreeOn (h : operators.agreeOn others op = true) :
    (operators.effective? op).isSome = (others.effective? op).isSome := by
  unfold agreeOn at h
  split at h
  · next hop hop' => rw [hop, hop']
  · next hop hop' => rw [hop, hop']; rfl
  · cases h

theorem order_of_agreeOn (h : operators.agreeOn others op = true) {tighter : Char}
    {p q p' q' : Int32} (hop : operators.Effective op p)
    (htighter : operators.Effective tighter q) (hop' : others.Effective op p')
    (htighter' : others.Effective tighter q') : p < q <-> p' < q' := by
  rw [agreeOn, effective?_eq_some_iff.mpr hop, effective?_eq_some_iff.mpr hop'] at h
  have hall := List.all_eq_true.mp h tighter (mem_keys htighter)
  rw [effective?_eq_some_iff.mpr htighter, effective?_eq_some_iff.mpr htighter'] at hall
  exact decide_eq_decide.mp (beq_iff_eq.mp hall)

end

theorem orderedAlike_iff (operators others : Operators) :
    (operators.keys ++ others.keys).all (operators.agreeOn others) = true <->
      operators.OrderedAlike others := by
  rw [List.all_eq_true]
  constructor
  · intro h
    constructor
    · intro op
      constructor
      · rintro ⟨p, hop⟩
        have hagree := h op (List.mem_append_left _ (mem_keys hop))
        rw [← isSome_effective?_iff, ← isSome_eq_of_agreeOn hagree, isSome_effective?_iff]
        exact ⟨p, hop⟩
      · rintro ⟨p, hop⟩
        have hagree := h op (List.mem_append_right _ (mem_keys hop))
        rw [← isSome_effective?_iff, isSome_eq_of_agreeOn hagree, isSome_effective?_iff]
        exact ⟨p, hop⟩
    · intro op tighter p q p' q' hop
      exact order_of_agreeOn (h op (List.mem_append_left _ (mem_keys hop))) hop
  · exact fun h op _ => agreeOn_of_orderedAlike h op

instance (operators others : Operators) : Decidable (operators.OrderedAlike others) :=
  decidable_of_iff _ (orderedAlike_iff operators others)

end Operators

namespace Parser

/-!
# Two parsers at one place
-/

structure Together (parser other : Parser) : Prop where
  scanner : parser.scanner = other.scanner
  current : parser.current = other.current

structure Agrees (result other : Result α) : Prop where
  outcome : result.1 = other.1
  rest : result.2.Together other.2

/-- Whatever construct is asked for, the results agree. -/
structure SameResults (parser other : Parser) : Prop where
  primary : Agrees parser.primary other.primary
  grouping : Agrees parser.grouping other.grouping
  expression : Agrees parser.expression other.expression
  prototype : Agrees parser.prototype other.prototype
  definition : Agrees parser.definition other.definition
  external : Agrees parser.external other.external
  bareExpression : Agrees parser.bareExpression other.bareExpression
  topLevel : Agrees parser.topLevel other.topLevel

/-- Some requests lead to the parser, from the start of some source with some table. -/
def Reached (parser : Parser) : Prop :=
  exists scanner operators requests,
    parser = after { start scanner with operators } requests

structure Beside (operators others : Operators) (parser other : Parser) : Prop where
  together : parser.Together other
  scanned : parser.Scanned
  operators_eq : parser.operators = operators
  others_eq : other.operators = others

theorem advance_together {parser other : Parser} (h : parser.Together other) :
    parser.advance.Together other.advance where
  scanner := congrArg (fun scanner => scanner.next.2) h.scanner
  current := congrArg (fun scanner => scanner.next.1) h.scanner

section

variable {operators others : Operators}

theorem advance_beside {parser other : Parser} (h : Beside operators others parser other) :
    Beside operators others parser.advance other.advance where
  together := advance_together h.together
  scanned := ⟨parser.scanner, rfl⟩
  operators_eq := h.operators_eq
  others_eq := h.others_eq

theorem beside_sameRank (horder : operators.OrderedAlike others) {parser other : Parser}
    (h : Beside operators others parser other) :
    Operators.SameRank operators others parser.precedence other.precedence := by
  rcases h.scanned with ⟨scanner, hcurrent⟩
  rw [precedence, precedence, h.operators_eq, h.others_eq, ← h.together.current, hcurrent]
  exact Operators.sameRank_of_scanned horder scanner

theorem beside_simulation (horder : operators.OrderedAlike others) :
    Simulation (Beside operators others) where
  alike h := Or.inl (congrArg Token.kind h.together.current)
  advance h _ := advance_beside h
  operator h := Operators.sameRank_neg (beside_sameRank horder h)
  order h hfurther :=
    Operators.sameRank_lt horder (beside_sameRank horder h) (beside_sameRank horder hfurther)

theorem agrees_of_related {result other : Result α}
    (h : Result.Related (Beside operators others) result other) : Agrees result other := by
  cases h with
  | ok value hrest => exact ⟨rfl, hrest.together⟩
  | error kind hrest =>
      refine ⟨?_, hrest.together⟩
      rw [errorHere, errorHere, position, position, hrest.together.current]

end

theorem sameResults_of_beside {operators others : Operators}
    (horder : operators.OrderedAlike others) {parser other : Parser}
    (h : Beside operators others parser other) : parser.SameResults other := by
  have hsim := beside_simulation horder
  constructor
  · exact agrees_of_related (hsim.primary h)
  · exact agrees_of_related (hsim.grouping (advance_beside h))
  · exact agrees_of_related (hsim.expression h)
  · exact agrees_of_related (hsim.prototype h)
  · exact agrees_of_related (hsim.definition (advance_beside h))
  · exact agrees_of_related (hsim.external (advance_beside h))
  · exact agrees_of_related (hsim.bareExpression h)
  · exact agrees_of_related (hsim.topLevel h)

/--
Two parsers at the same place of a source give the same results if their tables have
effective entries for the same operators, in the same order.  So an inert entry for
a character that is no operator changes no result.
-/
theorem sameResults_of_orderedAlike {parser : Parser} (hreached : parser.Reached) :
    (forall other : Parser, parser.Together other ->
      parser.operators.OrderedAlike other.operators -> parser.SameResults other) ∧
      forall (op : Char) (precedence : Int32),
        (forall p, ¬ parser.operators.Effective op p) ->
        Operators.IsInert op precedence ->
        parser.SameResults (parser.install op precedence) := by
  have hscanned : parser.Scanned := by
    rcases hreached with ⟨scanner, operators, requests, hparser⟩
    rw [hparser]
    exact after_scanned scanner operators requests
  constructor
  · intro other htogether horder
    exact sameResults_of_beside horder ⟨htogether, hscanned, rfl, rfl⟩
  · intro op precedence hnone hinert
    exact sameResults_of_beside (Operators.orderedAlike_install hnone hinert)
      ⟨⟨rfl, rfl⟩, hscanned, rfl, rfl⟩

def beforeUnclosed : Parser :=
  start (.start (.ofString "a + b * (c - d < .5;") "shell")

def beforeRescaled : Parser :=
  beforeUnclosed.after
    [.install 'é' 50, .install '.' 3, .install ';' 0, .install 'b' 9, .install '<' 1,
      .install '+' 7, .install '-' 7, .install '*' Int32.maxValue]

theorem sameResults_rescaled :
    beforeUnclosed.Reached ∧ beforeUnclosed.Together beforeRescaled ∧
      beforeUnclosed.operators.OrderedAlike beforeRescaled.operators ∧
      beforeUnclosed.SameResults beforeRescaled ∧
      (forall p, ¬ beforeUnclosed.operators.Effective ';' p) ∧ Operators.IsInert ';' (-3) ∧
      beforeUnclosed.SameResults (beforeUnclosed.install ';' (-3)) := by
  have hreached : beforeUnclosed.Reached :=
    ⟨.start (.ofString "a + b * (c - d < .5;") "shell", .standard, [], rfl⟩
  have htogether : beforeUnclosed.Together beforeRescaled := ⟨rfl, rfl⟩
  have horder : beforeUnclosed.operators.OrderedAlike beforeRescaled.operators := by
    decide +kernel
  have hnone : forall p, ¬ beforeUnclosed.operators.Effective ';' p := by
    intro p heffective
    have hlatest := Operators.effective?_eq_some_iff.mpr heffective
    cases hlatest
  have hinert : Operators.IsInert ';' (-3) := Or.inl (by decide)
  exact ⟨hreached, htogether, horder,
    (sameResults_of_orderedAlike hreached).left _ htogether horder, hnone, hinert,
    (sameResults_of_orderedAlike hreached).right _ _ hnone hinert⟩

end Parser
end Kaleidoscope

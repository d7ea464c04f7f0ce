import Kaleidoscope.Proofs.Scanner.Widening
import Kaleidoscope.Proofs.Session.Resynchronisation

/-!
# Sessions over widened tokens

No construct accepts a wide character, and a session drops it after an error.  So
it does not matter for the units that are read how many of them stand in one
place; only the number of errors changes.
-/

namespace Kaleidoscope
namespace Parser

theorem topLevel_of_inert {parser : Parser} (h : parser.Inert) :
    parser.topLevel = (.error (parser.errorHere .unknownToken), parser) := by
  have hprimary : parser.primary = parser.failure .unknownToken := by
    rw [primary_eq]
    rcases h with ⟨_, hend | ⟨c, hc, hopen, _⟩⟩
    · rw [hend]
    · rw [hc]
      split
      · contradiction
      · contradiction
      · next heq => exact absurd (Token.Kind.character.inj heq) hopen
      · rfl
  have hbare : parser.bareExpression = parser.failure .unknownToken := by
    rw [bareExpression_eq, expression_eq, hprimary]
    rfl
  rw [topLevel_eq, hbare]
  rcases h with ⟨_, hend | ⟨c, hc, _⟩⟩
  · rw [hend]
    rfl
  · rw [hc]
    rfl

theorem inert_of_isWide {parser : Parser} {c : Char} (hc : IsWide c)
    (hkind : parser.current.kind = .character c) : parser.Inert := by
  have hlarge : 128 ≤ c.toNat := hc
  have hnone : parser.operators.precedence? c = none := by
    rw [Operators.precedence?, Operators.isAscii]
    exact if_neg (by simpa using hlarge)
  have hne : forall d, d.toNat < 128 -> c ≠ d := by
    intro d hd hsame
    rw [hsame] at hc
    exact Nat.not_le.mpr hd hc
  constructor
  · rw [precedence, hkind, Operators.precedence, hnone]
    exact of_decide_eq_true rfl
  · exact Or.inr ⟨c, hkind, hne '(' (by decide), hne ')' (by decide), hne ',' (by decide)⟩

end Parser

namespace Session

/-- The second parser has the tokens of the first one, the wide characters widened. -/
structure Widened (parser other : Parser) : Prop where
  operators : parser.operators = other.operators
  lasting : parser.Lasting
  other_lasting : other.Lasting
  kinds : Token.Widens (parser.tokens.map Token.kind) (other.tokens.map Token.kind)

inductive Meets (parser other : Parser) : Prop where
  | atEnd :
      parser.current.kind = .endOfInput -> other.current.kind = .endOfInput ->
      Meets parser other
  | same :
      parser.current.kind ≠ .endOfInput -> other.current.kind = parser.current.kind ->
      Widened parser.advance other.advance -> Meets parser other
  | wide {c first : Char} {run : List Char} {kinds : List Token.Kind} :
      IsWide c -> parser.current.kind = .character c ->
      IsWide first -> other.current.kind = .character first ->
      (forall d, d ∈ run -> IsWide d) ->
      other.advance.tokens.map Token.kind = run.map Token.Kind.character ++ kinds ->
      Token.Widens (parser.advance.tokens.map Token.kind) kinds -> Meets parser other

section

variable {parser other : Parser}

theorem widened_meets (h : Widened parser other) : Meets parser other := by
  have hkinds := h.kinds
  generalize hparser : parser.tokens.map Token.kind = kinds at hkinds
  generalize hother : other.tokens.map Token.kind = others at hkinds
  cases hkinds with
  | atEnd => exact Meets.atEnd (Parser.current_of_kinds hparser) (Parser.current_of_kinds hother)
  | same hkind hwide hrest =>
      have hcurrent := Parser.current_of_kinds hparser
      have hadvance := Parser.advance_kinds_of_cons hparser hkind
      have hadvance' := Parser.advance_kinds_of_cons hother hkind
      apply Meets.same
      · rw [hcurrent]
        exact hkind
      · rw [hcurrent, Parser.current_of_kinds hother]
      · constructor
        · exact h.operators
        · exact Parser.advance_lasting parser
        · exact Parser.advance_lasting other
        · rw [hadvance, hadvance']
          exact hrest
  | wide hc hfirst hrun hrest =>
      have hadvance := Parser.advance_kinds_of_cons hparser nofun
      rw [← hadvance] at hrest
      exact Meets.wide hc (Parser.current_of_kinds hparser) hfirst
        (Parser.current_of_kinds hother) hrun (Parser.advance_kinds_of_cons hother nofun) hrest

theorem widened_alike (h : Widened parser other) :
    parser.current.kind = other.current.kind ∨ parser.Inert ∧ other.Inert := by
  cases widened_meets h with
  | atEnd hend hend' => exact Or.inl (hend.trans hend'.symm)
  | same _ hsame _ => exact Or.inl hsame.symm
  | wide hc hkind hfirst hkind' _ _ _ =>
      exact Or.inr ⟨Parser.inert_of_isWide hc hkind, Parser.inert_of_isWide hfirst hkind'⟩

theorem widened_simulation : Parser.Simulation Widened := by
  apply Parser.simulation_of_operators
  · exact widened_alike
  · intro parser other h hinert
    cases widened_meets h with
    | atEnd hend _ => exact absurd hend (Parser.kind_ne_endOfInput_of_not_inert hinert)
    | same _ _ hadvance => exact hadvance
    | wide hc hkind _ _ _ _ _ => exact absurd (Parser.inert_of_isWide hc hkind) hinert
  · exact fun h => h.operators

theorem successes_of_wide_run {run : List Char} {kinds : List Token.Kind}
    (hrun : forall d, d ∈ run -> IsWide d) (hlasting : parser.Lasting)
    (h : parser.tokens.map Token.kind = run.map Token.Kind.character ++ kinds) :
    exists rest, successes (outcomes parser) = successes (outcomes rest) ∧
      rest.operators = parser.operators ∧ rest.Lasting ∧
      rest.tokens.map Token.kind = kinds := by
  induction run generalizing parser with
  | nil => exact ⟨parser, rfl, rfl, hlasting, h⟩
  | cons d run ih =>
      have hd := hrun d List.mem_cons_self
      have hkind := Parser.current_of_kinds h
      have hsemicolon : parser.current.kind ≠ .character ';' := by
        rw [hkind]
        rintro ⟨⟩
        exact absurd hd (by decide)
      have hfailed := Parser.topLevel_of_inert (Parser.inert_of_isWide hd hkind)
      rcases ih (fun e he => hrun e (List.mem_cons_of_mem d he)) (Parser.advance_lasting parser)
          (Parser.advance_kinds_of_cons h nofun) with
        ⟨rest, hsuccesses, hoperators, hrest⟩
      refine ⟨rest, ?_, hoperators, hrest⟩
      rw [outcomes_of_error (by rw [hkind]; exact nofun) hsemicolon hfailed]
      exact hsuccesses

theorem widened_begins (h : Widened parser other)
    (hend : parser.current.kind ≠ .endOfInput)
    (hsemicolon : parser.current.kind ≠ .character ';') :
    other.current.kind ≠ .endOfInput ∧ other.current.kind ≠ .character ';' := by
  cases widened_meets h with
  | atEnd hlast _ => exact absurd hlast hend
  | same _ hsame _ =>
      rw [hsame]
      exact ⟨hend, hsemicolon⟩
  | wide _ _ hfirst hkind _ _ _ =>
      rw [hkind]
      refine ⟨nofun, ?_⟩
      rintro ⟨⟩
      exact absurd hfirst (by decide)

/-- After an error at a wide character both sessions come to the same place. -/
theorem successes_after_error {rest rest' : Parser} (h : Widened rest rest')
    (ih : forall {other : Parser}, Widened rest.advance other ->
      successes (outcomes other) = successes (outcomes rest.advance)) :
    successes (outcomes rest'.advance) = successes (outcomes rest.advance) := by
  cases widened_meets h with
  | atEnd hend hend' =>
      rw [outcomes_of_end (Parser.advance_current_of_end h.lasting hend),
        outcomes_of_end (Parser.advance_current_of_end h.other_lasting hend')]
  | same _ _ hadvance => exact ih hadvance
  | wide _ _ _ _ hrun hother hrest =>
      rcases successes_of_wide_run hrun (Parser.advance_lasting rest') hother with
        ⟨last, hsuccesses, hoperators, hlasting, hkinds⟩
      rw [← hkinds] at hrest
      rw [hsuccesses]
      exact ih ⟨h.operators.trans hoperators.symm, Parser.advance_lasting rest, hlasting, hrest⟩

/-- The units that are read are the same, and in the same order. -/
theorem successes_of_widened (h : Widened parser other) :
    successes (outcomes other) = successes (outcomes parser) := by
  revert other
  refine outcomes_induction
    (motive := fun parser found => forall {other : Parser},
      Widened parser other -> successes (outcomes other) = successes found)
    ?_ ?_ ?_ ?_ parser
  · intro parser hend other h
    have hend' : other.current.kind = .endOfInput := by
      cases widened_meets h with
      | atEnd _ hend' => exact hend'
      | same hne _ _ => exact absurd hend hne
      | wide _ hkind _ _ _ _ _ =>
          rw [hkind] at hend
          cases hend
    rw [outcomes_of_end hend']
  · intro parser hsemicolon ih other h
    cases widened_meets h with
    | atEnd hend _ =>
        rw [hsemicolon] at hend
        cases hend
    | same _ hsame hadvance =>
        rw [outcomes_of_semicolon (hsame.trans hsemicolon)]
        exact ih hadvance
    | wide hc hkind _ _ _ _ _ =>
        rw [hsemicolon] at hkind
        cases hkind
        exact absurd hc (by decide)
  · intro parser unit rest hend hsemicolon hparsed ih other h
    rcases topLevel_of_related (widened_simulation.topLevel h) hparsed with
      ⟨rest', hparsed', hrest⟩
    rcases widened_begins h hend hsemicolon with ⟨hend', hsemicolon'⟩
    rw [outcomes_of_ok hend' hsemicolon' hparsed']
    exact congrArg (unit :: ·) (ih hrest)
  · intro parser error rest hend hsemicolon hfailed ih other h
    rcases topLevel_error_of_related (widened_simulation.topLevel h) hfailed with
      ⟨kind, rest', _, hfailed', hrest⟩
    rcases widened_begins h hend hsemicolon with ⟨hend', hsemicolon'⟩
    rw [outcomes_of_error hend' hsemicolon' hfailed']
    exact successes_after_error hrest ih

end

/-!
# Sessions over the same kinds
-/

/-- The tokens of both parsers have the same kinds, whatever their places are. -/
structure Alike (parser other : Parser) : Prop where
  operators : parser.operators = other.operators
  lasting : parser.Lasting
  other_lasting : other.Lasting
  kinds : other.tokens.map Token.kind = parser.tokens.map Token.kind

section

variable {parser other : Parser}

theorem alike_current (h : Alike parser other) : other.current.kind = parser.current.kind := by
  rcases Parser.tokens_eq_cons parser with ⟨after, hafter⟩
  have hkinds := h.kinds
  rw [hafter, List.map_cons] at hkinds
  exact Parser.current_of_kinds hkinds

theorem alike_advance (h : Alike parser other) : Alike parser.advance other.advance where
  operators := h.operators
  lasting := Parser.advance_lasting parser
  other_lasting := Parser.advance_lasting other
  kinds := by
    have hsame := alike_current h
    by_cases hend : parser.current.kind = .endOfInput
    · have hnext := Parser.advance_current_of_end h.lasting hend
      have hnext' := Parser.advance_current_of_end h.other_lasting (hsame.trans hend)
      rw [Parser.tokens_of_isEnd (Parser.isEnd_of_kind hnext),
        Parser.tokens_of_isEnd (Parser.isEnd_of_kind hnext'), List.map_singleton,
        List.map_singleton, hnext, hnext']
    · have hend' := hend
      rw [← hsame] at hend'
      have hkinds := h.kinds
      rw [Parser.tokens_of_not_isEnd (Parser.not_isEnd_of_kind hend),
        Parser.tokens_of_not_isEnd (Parser.not_isEnd_of_kind hend'), List.map_cons,
        List.map_cons] at hkinds
      injection hkinds

theorem alike_simulation : Parser.Simulation Alike := by
  apply Parser.simulation_of_operators
  · exact fun h => Or.inl (alike_current h).symm
  · exact fun h _ => alike_advance h
  · exact fun h => h.operators

def brief : Outcome -> Except SyntaxError.Kind TopLevel
  | .ok unit => .ok unit
  | .error error => .error error.kind

theorem briefs_of_alike (h : Alike parser other) :
    (rounds other).map (fun round => round.outcome?.map brief) =
      (rounds parser).map (fun round => round.outcome?.map brief) := by
  revert other
  refine rounds_induction
    (motive := fun parser found => forall {other : Parser}, Alike parser other ->
      (rounds other).map (fun round => round.outcome?.map brief) =
        found.map (fun round => round.outcome?.map brief))
    ?_ ?_ parser
  · intro parser hend other h
    rw [rounds_of_end ((alike_current h).trans hend)]
  · intro parser round hend hround ih other h
    have hsame := alike_current h
    rw [← hsame] at hend
    cases hround with
    | semicolon hsemicolon =>
        rw [rounds_of_semicolon (hsame.trans hsemicolon), List.map_cons, List.map_cons,
          ih (alike_advance h)]
    | unit hsemicolon hparsed =>
        rw [← hsame] at hsemicolon
        rcases topLevel_of_related (alike_simulation.topLevel h) hparsed with
          ⟨rest', hparsed', hrest⟩
        rw [rounds_of_ok hend hsemicolon hparsed', List.map_cons, List.map_cons, ih hrest]
    | error hsemicolon hfailed =>
        rw [← hsame] at hsemicolon
        rcases topLevel_error_of_related (alike_simulation.topLevel h) hfailed with
          ⟨kind, rest', herror, hfailed', hrest⟩
        rw [rounds_of_error hend hsemicolon hfailed', List.map_cons, List.map_cons,
          ih (alike_advance hrest), herror]
        rfl

end

end Session
end Kaleidoscope

import Mathlib.Data.List.ModifyLast
import Kaleidoscope.Proofs.Parser.Lookahead
import Kaleidoscope.Proofs.Scanner.Joining
import Kaleidoscope.Proofs.Session.Rounds

/-!
# Resynchronisation

In every state of the parser a semicolon is what the end of the input is: no
construct accepts it, and a session goes on behind it with a fresh unit.  So a
semicolon on a line of its own keeps what is before it from what is after it.
-/

namespace Kaleidoscope
namespace Outcome

def shift (distance : Nat) : Outcome -> Outcome
  | .ok unit => .ok unit
  | .error error => .error { error with position := error.position.shift distance }

def relocate (place : Position -> Position) : Outcome -> Outcome
  | .ok unit => .ok unit
  | .error error => .error { error with position := place error.position }

theorem shift_eq_relocate (distance : Nat) :
    shift distance = relocate (Position.shift distance) := by
  funext outcome
  cases outcome with
  | ok _ | error _ => rfl

/-- An error at the end of the input becomes one at a semicolon. -/
def atSemicolon (offset : Nat) : Outcome -> Outcome
  | .ok unit => .ok unit
  | .error error =>
      if error.lexeme = "" then
        .error ⟨error.kind, ";", ⟨offset, error.position.file⟩⟩
      else
        .error error

end Outcome

namespace Session

/-!
# Sessions of related parsers

A simulation of parsers is one of sessions if it also keeps the tokens that a
session itself uses.
-/

structure Simulates (R : Parser -> Parser -> Prop) (outcome : Outcome -> Outcome)
    (further : List Outcome) : Prop where
  simulation : Parser.Simulation R
  unit (value : TopLevel) : outcome (.ok value) = .ok value
  error {parser other : Parser} (kind : SyntaxError.Kind) : R parser other ->
    outcome (.error (parser.errorHere kind)) = .error (other.errorHere kind)
  step {parser other : Parser} : R parser other ->
    parser.current.kind ≠ .endOfInput ->
    other.current.kind = parser.current.kind ∧ R parser.advance other.advance
  last {parser other : Parser} : R parser other ->
    parser.current.kind = .endOfInput ->
    outcomes other = further ∧ outcomes other.advance = further

theorem topLevel_of_related {R : Parser -> Parser -> Prop} {parser other rest : Parser}
    {unit : TopLevel}
    (h : Parser.Result.Related R parser.topLevel other.topLevel)
    (hparsed : parser.topLevel = (.ok unit, rest)) :
    exists rest', other.topLevel = (.ok unit, rest') ∧ R rest rest' := by
  rw [hparsed] at h
  generalize hresult : other.topLevel = result at h
  cases h with
  | ok _ hrest => exact ⟨_, rfl, hrest⟩

theorem topLevel_error_of_related {R : Parser -> Parser -> Prop}
    {parser other rest : Parser} {error : SyntaxError}
    (h : Parser.Result.Related R parser.topLevel other.topLevel)
    (hfailed : parser.topLevel = (.error error, rest)) :
    exists kind rest', error = rest.errorHere kind ∧
      other.topLevel = (.error (rest'.errorHere kind), rest') ∧ R rest rest' := by
  generalize hleft : parser.topLevel = left at h
  generalize hright : other.topLevel = right at h
  rw [hleft] at hfailed
  cases h with
  | ok _ _ => cases hfailed
  | error kind hrest =>
      cases hfailed
      exact ⟨kind, _, rfl, rfl, hrest⟩

theorem outcomes_of_simulates {R : Parser -> Parser -> Prop}
    {outcome : Outcome -> Outcome} {further : List Outcome}
    (sim : Simulates R outcome further) {parser other : Parser}
    (h : R parser other) (hlasting : parser.Lasting) :
    outcomes other = (outcomes parser).map outcome ++ further := by
  revert other
  revert hlasting
  refine outcomes_induction
    (motive := fun parser found => parser.Lasting -> forall {other : Parser},
      R parser other -> outcomes other = found.map outcome ++ further)
    ?_ ?_ ?_ ?_ parser
  · intro parser hend _ other h
    exact (sim.last h hend).left
  · intro parser hsemicolon ih _ other h
    have hstep := sim.step h (by rw [hsemicolon]; exact nofun)
    rw [outcomes_of_semicolon (hstep.left.trans hsemicolon)]
    exact ih (Parser.advance_lasting parser) hstep.right
  · intro parser unit rest hend hsemicolon hparsed ih hlasting other h
    have hsame := (sim.step h hend).left
    rcases topLevel_of_related (sim.simulation.topLevel h) hparsed with
      ⟨rest', hparsed', hrest⟩
    have hrestLasting :=
      Parser.reaches_lasting (Parser.reaches_of_topLevel hparsed) hlasting
    rw [← hsame] at hend hsemicolon
    rw [outcomes_of_ok hend hsemicolon hparsed', ih hrestLasting hrest, List.map_cons,
      sim.unit, List.cons_append]
  · intro parser error rest hend hsemicolon hfailed ih hlasting other h
    have hsame := (sim.step h hend).left
    rcases topLevel_error_of_related (sim.simulation.topLevel h) hfailed with
      ⟨kind, rest', herror, hfailed', hrest⟩
    have hrestLasting :=
      Parser.reaches_lasting (Parser.reaches_of_topLevel hfailed) hlasting
    rw [← hsame] at hend hsemicolon
    rw [outcomes_of_error hend hsemicolon hfailed', List.map_cons, herror,
      sim.error kind hrest, List.cons_append]
    congr 1
    by_cases hlast : rest.current.kind = .endOfInput
    · rw [outcomes_of_end (Parser.advance_current_of_end hrestLasting hlast)]
      exact (sim.last hrest hlast).right
    · exact ih (Parser.advance_lasting rest) (sim.step hrest hlast).right

/-!
# Elsewhere in a text

Where tokens are decides nothing but the positions of errors.
-/

structure Relocates (move : Token -> Token) (place : Position -> Position) : Prop where
  kind (token : Token) : (move token).kind = token.kind
  lexeme (token : Token) : (move token).lexeme = token.lexeme
  start (token : Token) : (move token).span.start = place token.span.start

structure Displaced (move : Token -> Token) (parser other : Parser) : Prop where
  operators : parser.operators = other.operators
  lasting : other.Lasting
  tokens : other.tokens = parser.tokens.map move

section

variable {move : Token -> Token} {place : Position -> Position}
  {parser other : Parser}

theorem displaced_current (h : Displaced move parser other) :
    other.current = move parser.current := by
  rcases Parser.tokens_eq_cons parser with ⟨after, hafter⟩
  have htokens := h.tokens
  rw [hafter, List.map_cons] at htokens
  exact Parser.current_of_tokens htokens

theorem displaced_kind (hmove : Relocates move place) (h : Displaced move parser other) :
    other.current.kind = parser.current.kind := by
  rw [displaced_current h]
  exact hmove.kind parser.current

theorem displaced_advance (hmove : Relocates move place)
    (h : Displaced move parser other) (hkind : parser.current.kind ≠ .endOfInput) :
    Displaced move parser.advance other.advance where
  operators := h.operators
  lasting := Parser.advance_lasting other
  tokens := by
    have htokens := h.tokens
    rw [Parser.tokens_of_not_isEnd (Parser.not_isEnd_of_kind hkind),
      List.map_cons] at htokens
    rw [← displaced_kind hmove h] at hkind
    exact Parser.advance_tokens_of_cons htokens hkind

theorem displaced_simulation (hmove : Relocates move place) :
    Parser.Simulation (Displaced move) := by
  apply Parser.simulation_of_operators
  · intro parser other h
    exact Or.inl (displaced_kind hmove h).symm
  · intro parser other h hinert
    exact displaced_advance hmove h (Parser.kind_ne_endOfInput_of_not_inert hinert)
  · intro parser other h
    exact h.operators

theorem displaced_simulates (hmove : Relocates move place) :
    Simulates (Displaced move) (Outcome.relocate place) [] where
  simulation := displaced_simulation hmove
  unit _ := rfl
  error {parser other} kind h := by
    have hlexeme := hmove.lexeme parser.current
    have hstart := hmove.start parser.current
    rw [← displaced_current h] at hlexeme hstart
    rw [Parser.errorHere, Parser.errorHere, Parser.position, Parser.position, hlexeme,
      hstart]
    rfl
  step h hkind := ⟨displaced_kind hmove h, displaced_advance hmove h hkind⟩
  last {parser other} h hend := by
    have hother : other.current.kind = .endOfInput := by
      rw [displaced_kind hmove h]
      exact hend
    have hnext := Parser.advance_current_of_end h.lasting hother
    exact ⟨outcomes_of_end hother, outcomes_of_end hnext⟩

end

theorem relocates_shift (distance : Nat) :
    Relocates (Token.shift distance) (Position.shift distance) where
  kind _ := rfl
  lexeme _ := rfl
  start _ := rfl

/-!
# Up to a semicolon
-/

/-- Where the tokens of the first parser end, the second one is at a semicolon. -/
structure Parts (last semicolon : Token) (after : List Token)
    (parser other : Parser) : Prop where
  parser_operators : parser.operators = .standard
  other_operators : other.operators = .standard
  tokens : exists body, (forall token, token ∈ body -> token.lexeme ≠ "") ∧
    parser.tokens = body ++ [last] ∧ other.tokens = body ++ semicolon :: after

section

variable {last semicolon : Token} {after : List Token} {parser other : Parser}

theorem parts_current (h : Parts last semicolon after parser other) :
    parser.current = last ∧ other.current = semicolon ∨
      parser.current = other.current ∧ parser.current.lexeme ≠ "" := by
  rcases h.tokens with ⟨body, hlexemes, hparser, hother⟩
  cases body with
  | nil =>
      exact Or.inl ⟨Parser.current_of_tokens hparser, Parser.current_of_tokens hother⟩
  | cons token body =>
      have hcurrent := Parser.current_of_tokens hparser
      have hcurrent' := Parser.current_of_tokens hother
      rw [hcurrent, hcurrent']
      exact Or.inr ⟨rfl, hlexemes token List.mem_cons_self⟩

theorem parts_advance (hlast : last.kind = .endOfInput)
    (h : Parts last semicolon after parser other)
    (hkind : parser.current.kind ≠ .endOfInput) :
    other.current.kind = parser.current.kind ∧
      Parts last semicolon after parser.advance other.advance := by
  rcases h.tokens with ⟨body, hlexemes, hparser, hother⟩
  cases body with
  | nil =>
      rw [Parser.current_of_tokens hparser] at hkind
      exact absurd hlast hkind
  | cons token body =>
      have hsame : other.current.kind = parser.current.kind := by
        rw [Parser.current_of_tokens hparser, Parser.current_of_tokens hother]
      refine ⟨hsame, h.parser_operators, h.other_operators, body, ?_, ?_, ?_⟩
      · intro other hother
        exact hlexemes other (List.mem_cons_of_mem token hother)
      · exact Parser.advance_tokens_of_cons hparser hkind
      · rw [← hsame] at hkind
        exact Parser.advance_tokens_of_cons hother hkind

theorem parts_simulation (hlast : last.kind = .endOfInput)
    (hsemicolon : semicolon.kind = .character ';') :
    Parser.Simulation (Parts last semicolon after) := by
  apply Parser.simulation_of_operators
  · intro parser other h
    rcases parts_current h with ⟨hcurrent, hother⟩ | ⟨hsame, _⟩
    · right
      constructor
      · constructor
        · rw [Parser.precedence, hcurrent, hlast]
          exact of_decide_eq_true rfl
        · exact Or.inl (by rw [hcurrent, hlast])
      · constructor
        · rw [Parser.precedence, hother, hsemicolon, h.other_operators]
          exact of_decide_eq_true rfl
        · refine Or.inr ⟨';', by rw [hother, hsemicolon], ?_⟩
          decide
    · exact Or.inl (by rw [hsame])
  · intro parser other h hinert
    have hkind := Parser.kind_ne_endOfInput_of_not_inert hinert
    exact (parts_advance hlast h hkind).right
  · intro parser other h
    rw [h.parser_operators, h.other_operators]

end

theorem parts_simulates {last semicolon : Token} {after : List Token} {offset : Nat}
    {further : List Outcome} (hlast : last.kind = .endOfInput)
    (hlastLexeme : last.lexeme = "") (hsemicolon : semicolon.kind = .character ';')
    (hlexeme : semicolon.lexeme = ";")
    (hposition : semicolon.span.start = ⟨offset, last.span.start.file⟩)
    (hfurther : forall parser : Parser, parser.operators = .standard ->
      parser.Lasting -> parser.tokens = after -> outcomes parser = further) :
    Simulates (Parts last semicolon after) (Outcome.atSemicolon offset) further where
  simulation := parts_simulation hlast hsemicolon
  unit _ := rfl
  error kind h := by
    rcases parts_current h with ⟨hcurrent, hother⟩ | ⟨hsame, hne⟩
    · simp only [Parser.errorHere, Parser.position, hcurrent, hother, hlastLexeme,
        hlexeme, hposition, Outcome.atSemicolon, if_true]
    · rw [Parser.errorHere, Parser.errorHere, Parser.position, Parser.position, ← hsame,
        Outcome.atSemicolon, if_neg hne]
  step h hkind := parts_advance hlast h hkind
  last {parser other} h hend := by
    rcases h.tokens with ⟨body, _, hparser, hother⟩
    cases body with
    | nil =>
        have hcurrent : other.current.kind = .character ';' := by
          rw [Parser.current_of_tokens hother, hsemicolon]
        have htokens : other.advance.tokens = after :=
          Parser.advance_tokens_of_cons hother (by rw [hcurrent]; exact nofun)
        have hnext := hfurther other.advance h.other_operators
          (Parser.advance_lasting other) htokens
        exact ⟨(outcomes_of_semicolon hcurrent).trans hnext, hnext⟩
    | cons token body =>
        rw [Parser.tokens_of_isEnd (Parser.isEnd_of_kind hend)] at hparser
        simp at hparser

/-!
# Only the last error is at the end
-/

def Spelled : Parser -> Prop :=
  Parser.Throughout fun token => token.lexeme ≠ ""

theorem start_spelled (scanner : Scanner) : Spelled (.start scanner) where
  lasting := Parser.start_lasting scanner
  tokens hmem hkind hempty := by
    rw [Parser.start_tokens] at hmem
    exact hkind ((Scanner.lexes_marked (Scanner.tokens_lexes scanner) hmem).mp hempty)

theorem mem_dropLast_cons {x y : α} {rest : List α} (h : x ∈ (y :: rest).dropLast) :
    rest ≠ [] ∧ (x = y ∨ x ∈ rest.dropLast) := by
  cases rest with
  | nil => cases h
  | cons z rest =>
      rw [List.dropLast_cons_cons] at h
      exact ⟨List.cons_ne_nil z rest, List.mem_cons.mp h⟩

theorem lexeme_ne_empty_of_mem_dropLast {parser : Parser} (hspelled : Spelled parser)
    {error : SyntaxError} (h : .error error ∈ (outcomes parser).dropLast) :
    error.lexeme ≠ "" := by
  revert hspelled
  revert h
  refine outcomes_induction
    (motive := fun parser found => .error error ∈ found.dropLast ->
      Spelled parser -> error.lexeme ≠ "")
    ?_ ?_ ?_ ?_ parser
  · intro parser _ h
    cases h
  · intro parser _ ih h hspelled
    exact ih h (Parser.advance_throughout hspelled)
  · intro parser unit rest _ _ hparsed ih h hspelled
    have hrest := Parser.reaches_throughout (Parser.reaches_of_topLevel hparsed) hspelled
    rcases mem_dropLast_cons h with ⟨_, hsame | hmem⟩
    · cases hsame
    · exact ih hmem hrest
  · intro parser failure rest _ _ hfailed ih h hspelled
    have hrest := Parser.reaches_throughout (Parser.reaches_of_topLevel hfailed) hspelled
    rcases mem_dropLast_cons h with ⟨hne, hsame | hmem⟩
    · rcases Parser.topLevel_error hfailed with ⟨kind, herror⟩
      injection hsame with hsame
      rw [hsame, herror]
      apply Parser.current_throughout hrest
      intro hlast
      exact hne (outcomes_of_end (Parser.advance_current_of_end hrest.lasting hlast))
    · exact ih hmem (Parser.advance_throughout hrest)

theorem modifyLast_eq_map {f : α -> α} {list : List α}
    (h : forall x, x ∈ list.dropLast -> f x = x) : list.modifyLast f = list.map f := by
  cases List.eq_nil_or_concat list with
  | inl hnil =>
      rw [hnil]
      rfl
  | inr hconcat =>
      rcases hconcat with ⟨init, last, hlist⟩
      rw [List.concat_eq_append] at hlist
      rw [hlist, List.dropLast_concat] at h
      rw [hlist, List.modifyLast_concat, List.map_append, List.map_singleton,
        List.map_congr_left h, List.map_id']

end Session

/-!
# A semicolon between two texts
-/

theorem tokens_semicolon (a b file : String)
    (h : (a ++ "\n;" ++ b).toList.length < Nat.pow 2 32) :
    exists body semicolon,
      (forall token, token ∈ body -> token.lexeme ≠ "") ∧
      tokenize a file = body ++ [Token.atEnd a.toList.length file] ∧
      tokenize (a ++ "\n;" ++ b) file =
        body ++ semicolon ::
          (tokenize b file).map (Token.shift (a.toList.length + 2)) ∧
      semicolon.kind = .character ';' ∧ semicolon.lexeme = ";" ∧
      semicolon.span.start = ⟨a.toList.length + 1, file⟩ := by
  have htext : (a ++ "\n;" ++ b).toList = a.toList ++ '\n' :: (';' :: b.toList) := by
    rw [String.toList_append, String.toList_append, List.append_assoc]
    rfl
  have hlength : (a ++ "\n;" ++ b).toList.length =
      a.toList.length + (';' :: b.toList).length + 1 := by
    rw [htext, List.length_append, List.length_cons]
    rfl
  have htotal : a.toList.length + (';' :: b.toList).length + 1 ≤
      Position.maxOffset := by
    rw [← hlength]
    exact Nat.le_sub_one_of_lt h
  have hsum : b.toList.length + (a.toList.length + 2) =
      a.toList.length + (';' :: b.toList).length + 1 := by
    rw [List.length_cons]
    omega
  rcases Scanner.lexes_append (tokenize_lexes a file) (Nat.le_refl _) with
    ⟨body, hbody, hlexemes, happend⟩
  have hafter := Scanner.lexes_shift (tokenize_lexes b file) (Nat.le_refl _)
    (hsum ▸ htotal)
  rw [hsum] at hafter
  have halone := Token.takeWhile_run (p := Token.continues ';')
    (fun c hc => absurd hc List.not_mem_nil)
    (fun c (_ : b.toList.head? = some c) => rfl)
  rw [List.nil_append] at halone
  refine ⟨body, Token.beginning (a.toList.length + (';' :: b.toList).length + 1)
    file ';' b.toList, hlexemes, hbody, ?_, rfl, ?_, ?_⟩
  · apply Scanner.lexes_unique (tokenize_lexes (a ++ "\n;" ++ b) file)
    rw [hlength, htext]
    apply happend htotal
    apply Scanner.Lexes.token rfl
    rw [halone.right]
    exact hafter
  · rw [Token.beginning, halone.left]
    rfl
  · have hstart := Position.before_eq_sub htotal (b.toList.length + 1)
    have hplace : a.toList.length + (';' :: b.toList).length + 1 -
        (b.toList.length + 1) = a.toList.length + 1 := by
      rw [List.length_cons]
      omega
    rw [Token.beginning, Token.ofLexeme, hstart, hplace]

def Parser.ofText (text : String) : Parser :=
  .start (.start (.ofString text) Scanner.unnamed)

theorem Parser.ofText_tokens (text : String) :
    (ofText text).tokens = tokenize text Scanner.unnamed :=
  start_tokens _

/-- With its tokens elsewhere a text is read with its errors elsewhere. -/
theorem outcomes_of_relocated {move : Token -> Token} {place : Position -> Position}
    (hmove : Session.Relocates move place) {text : String} {parser : Parser}
    (hoperators : parser.operators = .standard) (hlasting : parser.Lasting)
    (htokens : parser.tokens = (tokenize text Scanner.unnamed).map move) :
    Session.outcomes parser = (parseSource text).map (Outcome.relocate place) := by
  rw [← Parser.ofText_tokens] at htokens
  have hsame := Session.outcomes_of_simulates (Session.displaced_simulates hmove)
    ⟨hoperators.symm, hlasting, htokens⟩ (Parser.start_lasting _)
  rw [List.append_nil] at hsame
  exact hsame

theorem parseSource_modifyLast (text : String) (offset : Nat) :
    (parseSource text).modifyLast (Outcome.atSemicolon offset) =
      (parseSource text).map (Outcome.atSemicolon offset) := by
  apply Session.modifyLast_eq_map
  intro outcome hmem
  cases outcome with
  | ok unit => rfl
  | error error =>
      have hne := Session.lexeme_ne_empty_of_mem_dropLast (Session.start_spelled _) hmem
      rw [Outcome.atSemicolon, if_neg hne]

/--
A semicolon on a line of its own keeps two texts apart: the first one is read as
it is without the second, but for the token that an error at its end describes,
and the second one as it is without the first, at higher offsets.
-/
theorem parseSource_semicolon (a b : String)
    (h : (a ++ "\n;" ++ b).toList.length < Nat.pow 2 32) :
    parseSource (a ++ "\n;" ++ b) =
      (parseSource a).modifyLast (Outcome.atSemicolon (a.toList.length + 1)) ++
        (parseSource b).map (Outcome.shift (a.toList.length + 2)) := by
  rcases tokens_semicolon a b Scanner.unnamed h with
    ⟨body, semicolon, hlexemes, hfirst, hwhole, hkind, hlexeme, hstart⟩
  rw [← Parser.ofText_tokens] at hfirst hwhole
  have hsecond : forall parser : Parser, parser.operators = .standard ->
      parser.Lasting ->
      parser.tokens = (tokenize b Scanner.unnamed).map
        (Token.shift (a.toList.length + 2)) ->
      Session.outcomes parser =
        (parseSource b).map (Outcome.shift (a.toList.length + 2)) := by
    intro parser hoperators hlasting htokens
    rw [Outcome.shift_eq_relocate]
    exact outcomes_of_relocated (Session.relocates_shift _) hoperators hlasting htokens
  have hend : (Token.atEnd a.toList.length Scanner.unnamed).kind = .endOfInput := rfl
  have hparts := Session.parts_simulates hend rfl hkind hlexeme hstart hsecond
  rw [parseSource_modifyLast]
  exact Session.outcomes_of_simulates hparts
    ⟨rfl, rfl, body, hlexemes, hfirst, hwhole⟩ (Parser.start_lasting _)

theorem parseSource_semicolon_arguments :
    ("f(x, # open" ++ "\n;" ++ "y) z").toList.length < Nat.pow 2 32 ∧
      parseSource ("f(x, # open" ++ "\n;" ++ "y) z") =
        (parseSource "f(x, # open").modifyLast (Outcome.atSemicolon 12) ++
          (parseSource "y) z").map (Outcome.shift 13) :=
  ⟨by decide, parseSource_semicolon "f(x, # open" "y) z" (by decide)⟩

end Kaleidoscope

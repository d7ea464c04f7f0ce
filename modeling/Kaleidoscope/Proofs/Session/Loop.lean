import Kaleidoscope.Proofs.Session.Rounds
import Kaleidoscope.Proofs.Session.Transcripts

/-!
# The read loop

The loop performs the events of its session one after the other.  So a session
that fails has performed the events before the one that failed, and no others.
-/

namespace Kaleidoscope
namespace Session

/-!
# Reports and prompts
-/

/-- Bytes are written alike whether they come in one write or in two. -/
theorem write_append (limits : Limits) (first second : String) :
    (do write limits first; write limits second) = write limits (first ++ second) := by
  have hlength : (Text.utf8 (first ++ second)).length =
      (Text.utf8 first).length + (Text.utf8 second).length := by
    rw [Text.utf8_append, List.length_append]
  have hrun (done : Transcript) :
      (do write limits first; write limits second : Action Unit).run done =
        (write limits (first ++ second)).run done := by
    rw [EStateM.run_bind]
    -- The room that the first write leaves decides whether the second one fits.
    rcases fits_or_less limits done.diagnostics.length first with
      hfirst | ⟨room, hroom, hless⟩
    · rw [write_fits hfirst]
      rcases fits_or_less limits (done.diagnostics ++ Text.utf8 first).length second with
        hsecond | ⟨room, hroom, hless⟩
      · have hboth : limits.Fits done.diagnostics.length (first ++ second) := by
          intro room hroom
          have hleft := hsecond room hroom
          have hfits := hfirst room hroom
          rw [List.length_append] at hleft
          omega
        rw [write_fits hboth, Text.utf8_append, ← List.append_assoc]
        exact write_fits hsecond
      · have hfits := hfirst room hroom
        have hcut : room - done.diagnostics.length <
            (Text.utf8 (first ++ second)).length := by
          rw [List.length_append] at hless
          omega
        rw [write_overflows hroom hcut, Text.utf8_append, List.take_append,
          List.take_of_length_le hfits, Nat.sub_sub, ← List.length_append,
          ← List.append_assoc]
        exact write_overflows hroom hless
    · have hcut : room - done.diagnostics.length <
          (Text.utf8 (first ++ second)).length := by
        rw [hlength]
        exact Nat.lt_of_lt_of_le hless (Nat.le_add_right _ _)
      rw [write_overflows hroom hless, write_overflows hroom hcut, Text.utf8_append,
        List.take_append_of_le_length (Nat.le_of_lt hless)]
  exact funext hrun

theorem reportError_eq (limits : Limits) (style : Style) (error : SyntaxError) :
    reportError limits style error = write limits (errorReport style error) := by
  cases style with
  | plain => rw [reportError, errorReport, String.append_empty]
  | snippet text => exact write_append limits _ _

theorem showPrompt_eq (limits : Limits) (settings : Settings) :
    showPrompt limits settings = perform limits (prompt settings) := by
  unfold showPrompt prompt
  split
  · rw [perform, perform_one]
    rfl
  · rfl

theorem perform_outcome (limits : Limits) (style : Style) (outcome : Outcome) :
    perform limits (outcomeEvents style outcome) =
      (do write limits (report style outcome); deliver limits outcome) := by
  rw [outcomeEvents, perform, perform_one]
  rfl

/-!
# Turns
-/

section

variable {limits : Limits} {settings : Settings} {parser : Parser}

theorem turn_of_end (h : parser.current.kind = .endOfInput) :
    turn limits settings parser = pure none := by
  rw [turn, h]

theorem turn_of_semicolon (h : parser.current.kind = .character ';') :
    turn limits settings parser = pure (some parser.advance) := by
  rw [turn, h]
  rfl

theorem turn_of_unit (hend : parser.current.kind ≠ .endOfInput)
    (hsemicolon : parser.current.kind ≠ .character ';') :
    turn limits settings parser =
      match parser.topLevel with
      | (.ok unit, rest) => do
          perform limits (outcomeEvents settings.style (.ok unit))
          return some rest
      | (.error error, rest) => do
          perform limits (outcomeEvents settings.style (.error error))
          return some rest.advance := by
  unfold turn
  split
  · next hkind => exact absurd hkind hend
  · next hkind => exact absurd hkind hsemicolon
  · rcases parser.topLevel with ⟨error | unit, rest⟩
    · simp only [perform_outcome, reportError_eq, report, bind_assoc]
    · simp only [perform_outcome, reportUnit, report, bind_assoc]

theorem turn_eq (limits : Limits) (settings : Settings) (parser : Parser) :
    turn limits settings parser =
      match round? parser with
      | none => return none
      | some round => do
          perform limits ((round.outcome?.map (outcomeEvents settings.style)).getD [])
          return some round.next := by
  by_cases hend : parser.current.kind = .endOfInput
  · rw [turn_of_end hend, round?_of_end hend]
  · by_cases hsemicolon : parser.current.kind = .character ';'
    · rw [turn_of_semicolon hsemicolon, round?_of_semicolon hsemicolon]
      exact (pure_bind _ _).symm
    · rw [turn_of_unit hend hsemicolon, round?_of_unit hend hsemicolon]
      rcases parser.topLevel with ⟨error | unit, rest⟩
      · rfl
      · rfl

/-!
# The loop
-/

theorem loopWithin_eq (bound : Nat) (parser : Parser) :
    loopWithin limits settings bound parser =
      perform limits ((roundsWithin bound parser).flatMap (roundEvents settings)) := by
  -- Turns and rounds are counted alike, so it does not matter what the bound is.
  induction bound generalizing parser with
  | zero => rfl
  | succ bound ih =>
      rw [loopWithin, roundsWithin, turn_eq]
      cases round? parser with
      | none => exact pure_bind _ _
      | some round =>
          rw [List.flatMap_cons, roundEvents, perform_append, perform_append]
          simp only [bind_assoc, pure_bind, showPrompt_eq, ih]

theorem loop_eq_perform (parser : Parser) :
    loop limits settings parser =
      perform limits ((rounds parser).flatMap (roundEvents settings)) :=
  loopWithin_eq parser.pending parser

/-- The loop goes on until the input is at its end or an operation fails. -/
theorem loop_eq (parser : Parser) :
    loop limits settings parser = (do
      match ← turn limits settings parser with
      | none => return
      | some next => do
          showPrompt limits settings
          loop limits settings next) := by
  rw [loop_eq_perform, rounds_eq, turn_eq]
  cases round? parser with
  | none => exact (pure_bind _ _).symm
  | some round =>
      rw [List.flatMap_cons, roundEvents, perform_append, perform_append]
      simp only [bind_assoc, pure_bind, showPrompt_eq, loop_eq_perform]

end

/-- A session performs its events in order. -/
theorem session_eq (limits : Limits) (settings : Settings) (scanner : Scanner) :
    session limits settings scanner = perform limits (events settings scanner) := by
  rw [events, perform_append, perform_append, perform_one, bind_assoc, session, showPrompt_eq,
    loop_eq_perform]
  rfl

theorem run_leaves (limits : Limits) (settings : Settings) (scanner : Scanner) :
    Leaves limits (events settings scanner) (run limits settings scanner) := by
  rw [run, session_eq]
  exact perform_leaves limits _

theorem run_unlimited (settings : Settings) (scanner : Scanner) :
    run .unlimited settings scanner = completed 0 (events settings scanner) :=
  leaves_of_allow (run_leaves .unlimited settings scanner) (Limits.unlimited_allow _)

/-!
# The order of events

What a session does is said here without its rounds: by the token that each turn
begins with, and by what the parser reads there.
-/

inductive Prompts (settings : Settings) : List Event -> Prop where
  | shown : settings.prompting = true -> Prompts settings [.write "ready> ", .flush]
  | silent : settings.prompting = false -> Prompts settings []

inductive Reports : Style -> Outcome -> String -> Prop where
  | definition (style : Style) (unit : Definition) :
      Reports style (.ok (.definition unit)) "parsed a function definition\n"
  | external (style : Style) (unit : Prototype) :
      Reports style (.ok (.external unit)) "parsed an extern\n"
  | expression (style : Style) (unit : Definition) :
      Reports style (.ok (.expression unit)) "parsed a top-level expr\n"
  | plain (error : SyntaxError) :
      Reports .plain (.error error) ("error: " ++ error.message ++ "\n")
  | snippet (text : String) (error : SyntaxError) :
      Reports (.snippet text) (.error error)
        ("error: " ++ error.message ++ "\n" ++ Snippet.render error text)

/-- What a session still does at a parser, once it has shown its prompt. -/
inductive Proceeds (settings : Settings) : Parser -> List Event -> Prop where
  | finish {parser : Parser} :
      parser.current.kind = .endOfInput -> Proceeds settings parser [.flush]
  | semicolon {parser : Parser} {shown after : List Event} :
      parser.current.kind = .character ';' -> Prompts settings shown ->
      Proceeds settings parser.advance after ->
      Proceeds settings parser (shown ++ after)
  | unit {parser rest : Parser} {unit : TopLevel} {text : String}
      {shown after : List Event} :
      parser.current.kind ≠ .endOfInput -> parser.current.kind ≠ .character ';' ->
      parser.topLevel = (.ok unit, rest) ->
      Reports settings.style (.ok unit) text -> Prompts settings shown ->
      Proceeds settings rest after ->
      Proceeds settings parser (.write text :: .deliver (.ok unit) :: (shown ++ after))
  | error {parser rest : Parser} {error : SyntaxError} {text : String}
      {shown after : List Event} :
      parser.current.kind ≠ .endOfInput -> parser.current.kind ≠ .character ';' ->
      parser.topLevel = (.error error, rest) ->
      Reports settings.style (.error error) text -> Prompts settings shown ->
      Proceeds settings rest.advance after ->
      Proceeds settings parser (.write text :: .deliver (.error error) :: (shown ++ after))

section

variable {settings : Settings} {parser : Parser}

theorem prompts_iff {shown : List Event} :
    Prompts settings shown <-> shown = prompt settings := by
  constructor
  · intro h
    cases h with
    | shown hprompting => rw [prompt, if_pos hprompting, promptText]
    | silent hprompting => rw [prompt, hprompting, if_neg Bool.false_ne_true]
  · intro h
    rw [h, prompt]
    cases hprompting : settings.prompting with
    | true => exact Prompts.shown hprompting
    | false => exact Prompts.silent hprompting

theorem reports_report (style : Style) (outcome : Outcome) :
    Reports style outcome (report style outcome) := by
  rcases outcome with error | unit
  · cases style with
    | plain =>
        rw [report, errorReport, String.append_empty]
        exact Reports.plain error
    | snippet text => exact Reports.snippet text error
  · cases unit with
    | definition unit => exact Reports.definition style unit
    | external unit => exact Reports.external style unit
    | expression unit => exact Reports.expression style unit

theorem reports_iff {style : Style} {outcome : Outcome} {text : String} :
    Reports style outcome text <-> text = report style outcome := by
  constructor
  · intro h
    cases h with
    | definition _ unit | external _ unit | expression _ unit => rfl
    | plain error => rw [report, errorReport, String.append_empty, errorLine]
    | snippet text error => rfl
  · intro h
    rw [h]
    exact reports_report style outcome

theorem proceeds_rounds (settings : Settings) (parser : Parser) :
    Proceeds settings parser
      ((rounds parser).flatMap (roundEvents settings) ++ [.flush]) := by
  refine rounds_induction
    (motive := fun parser found =>
      Proceeds settings parser (found.flatMap (roundEvents settings) ++ [.flush])) ?_ ?_ parser
  · intro parser hend
    exact Proceeds.finish hend
  · intro parser round hend hround ih
    rw [List.flatMap_cons, List.append_assoc]
    cases hround with
    | semicolon hsemicolon =>
        exact Proceeds.semicolon hsemicolon (prompts_iff.mpr rfl) ih
    | unit hsemicolon hparsed =>
        exact Proceeds.unit hend hsemicolon hparsed (reports_report _ _)
          (prompts_iff.mpr rfl) ih
    | error hsemicolon hfailed =>
        exact Proceeds.error hend hsemicolon hfailed (reports_report _ _)
          (prompts_iff.mpr rfl) ih

theorem proceeds_iff {after : List Event} :
    Proceeds settings parser after <->
      after = (rounds parser).flatMap (roundEvents settings) ++ [.flush] := by
  constructor
  · intro h
    induction h with
    | finish hend => rw [rounds_of_end hend, List.flatMap_nil, List.nil_append]
    | semicolon hsemicolon hprompts _ ih =>
        rw [rounds_of_semicolon hsemicolon, List.flatMap_cons, List.append_assoc, ← ih,
          prompts_iff.mp hprompts]
        rfl
    | unit hend hsemicolon hparsed hreports hprompts _ ih =>
        rw [rounds_of_ok hend hsemicolon hparsed, List.flatMap_cons, List.append_assoc, ← ih,
          prompts_iff.mp hprompts, reports_iff.mp hreports]
        rfl
    | error hend hsemicolon hfailed hreports hprompts _ ih =>
        rw [rounds_of_error hend hsemicolon hfailed, List.flatMap_cons, List.append_assoc,
          ← ih, prompts_iff.mp hprompts, reports_iff.mp hreports]
        rfl
  · intro h
    rw [h]
    exact proceeds_rounds settings parser

/-- There is one sequence of events that a session can perform. -/
theorem eq_events_iff {scanner : Scanner} {all : List Event} :
    all = events settings scanner <->
      exists shown after, all = shown ++ after ∧ Prompts settings shown ∧
        Proceeds settings (.start scanner) after := by
  constructor
  · intro h
    rw [h, events, List.append_assoc]
    exact ⟨_, _, rfl, prompts_iff.mpr rfl, proceeds_rounds settings _⟩
  · rintro ⟨shown, after, hall, hshown, hafter⟩
    rw [hall, prompts_iff.mp hshown, proceeds_iff.mp hafter, events, List.append_assoc]

end

end Session
end Kaleidoscope

import Kaleidoscope.CommandLine.Run
import Kaleidoscope.Proofs.Session.Interruption
import Kaleidoscope.Proofs.Session.Widening

/-!
# Files and the standard input

A file is read character by character and the standard input byte by byte.  Both
give the same units, so the output is the same.  The errors are the same too if
the two ways to read differ in comments only.
-/

namespace Kaleidoscope
namespace CommandLine

/-!
# The output
-/

theorem output_eq (options : Options) (events : List Session.Event) :
    String.join (events.map (eventOutput options)) =
      String.join ((successes (events.filterMap Session.Event.outcome?)).map
        (unitOutput options)) := by
  induction events with
  | nil => rfl
  | cons event events ih =>
      rw [List.map_cons, String.join_cons, ih]
      cases event with
      | write text | flush => exact String.empty_append
      | deliver outcome =>
          rcases outcome with error | unit
          · exact String.empty_append
          · exact String.join_cons.symm

theorem output_of_session (options : Options) (settings : Session.Settings)
    (scanner : Scanner) :
    String.join ((Session.events settings scanner).map (eventOutput options)) =
      String.join ((successes (Session.outcomes (.start scanner))).map
        (unitOutput options)) := by
  rw [output_eq, Session.events_outcomes]

theorem unitOutput_congr {options options' : Options} (hprint : options'.print = options.print)
    (hdump : options'.dumpAst = options.dumpAst) : unitOutput options' = unitOutput options := by
  funext unit
  rw [unitOutput, unitOutput, hprint, hdump]

/-!
# The errors
-/

def briefReport : Except SyntaxError.Kind TopLevel -> String
  | .ok unit => Session.unitReport unit
  | .error kind => "error: " ++ kind.message ++ "\n" ++ ""

theorem report_plain (outcome : Outcome) :
    Session.report .plain outcome = briefReport (Session.brief outcome) := by
  rcases outcome with error | unit
  · rfl
  · rfl

def briefTexts (settings : Session.Settings)
    (brief? : Option (Except SyntaxError.Kind TopLevel)) : List String :=
  (brief?.map fun brief => [briefReport brief, ""]).getD [] ++
    (Session.prompt settings).map eventDiagnostics

theorem roundEvents_texts {settings : Session.Settings} (h : settings.style = .plain)
    (round : Session.Round) :
    (Session.roundEvents settings round).map eventDiagnostics =
      briefTexts settings (round.outcome?.map Session.brief) := by
  rw [Session.roundEvents, List.map_append, h, briefTexts]
  rcases round with ⟨_ | outcome, next⟩
  · rfl
  · rw [Option.map_some, Option.map_some, Option.map_some, Option.getD_some, Option.getD_some,
      ← report_plain]
    rfl

theorem errors_of_alike {settings : Session.Settings} (hplain : settings.style = .plain)
    {scanner scanner' : Scanner} (h : Session.Alike (.start scanner) (.start scanner')) :
    (Session.events settings scanner').map eventDiagnostics =
      (Session.events settings scanner).map eventDiagnostics := by
  have hrounds (rounds : List Session.Round) :
      (rounds.flatMap (Session.roundEvents settings)).map eventDiagnostics =
        (rounds.map fun round => round.outcome?.map Session.brief).flatMap
          (briefTexts settings) := by
    rw [List.map_flatMap, List.flatMap_map]
    exact congrArg (fun texts => rounds.flatMap texts)
      (funext fun round => roundEvents_texts hplain round)
  simp only [Session.events, List.map_append, hrounds, Session.briefs_of_alike h]

/-!
# Two ways to read a text
-/

theorem widened_input (text name : String) :
    Session.Widened (.start (.start (.ofString text) name))
      (.start (inputScanner (Text.utf8 text))) where
  operators := rfl
  lasting := Parser.start_lasting _
  other_lasting := Parser.start_lasting _
  kinds := by
    rw [Parser.start_tokens, Parser.start_tokens]
    exact Scanner.widens_tokens text name Scanner.unnamed

theorem alike_input {text : String} (h : Cursor.Commented false text.toList) (name : String) :
    Session.Alike (.start (.start (.ofString text) name))
      (.start (inputScanner (Text.utf8 text))) where
  operators := rfl
  lasting := Parser.start_lasting _
  other_lasting := Parser.start_lasting _
  kinds := by
    rw [Parser.start_tokens, Parser.start_tokens]
    exact Scanner.kinds_of_commented h name Scanner.unnamed

/-- A run over a file with a text, and one over the standard input with its bytes. -/
structure Agrees (text name : String) (options options' : Options)
    (fileRun inputRun : Result) : Prop where
  file_exit : fileRun.exit = 0
  input_exit : inputRun.exit = 0
  units :
    successes (Session.outcomes (.start (inputScanner (Text.utf8 text)))) =
      successes (Session.outcomes (.start (.start (.ofString text) name)))
  output : inputRun.output = fileRun.output
  errors :
    Cursor.Commented false text.toList -> options.snippets = false ->
      options'.noPrompt = options.noPrompt -> inputRun.errors = fileRun.errors

theorem course_of_file {options : Options} {files : String -> FileState} {name text : String}
    (hname : options.file? = some name) (hfile : files name = .content (Text.utf8 text))
    (input : List UInt8) :
    course options files input =
      ⟨Session.events (fileSettings options text) (fileScanner name text), 0⟩ := by
  have htext : (files name).text = .ok text := by
    rw [hfile, FileState.text, Text.ofUtf8?_utf8]
  simp only [course, hname, fileCourse, htext]

theorem course_of_input {options : Options} (hnone : options.file? = none)
    (files : String -> FileState) (input : List UInt8) :
    course options files input =
      ⟨Session.events (inputSettings options) (inputScanner input), 0⟩ := by
  simp only [course, hnone, inputCourse]

/-- Reading a file and reading the standard input agree. -/
theorem run_file_agrees {text name : String} {options options' : Options}
    (files files' : String -> FileState) (input : List UInt8)
    (hname : options.file? = some name) (hfile : files name = .content (Text.utf8 text))
    (hnone : options'.file? = none)
    (hprint : options'.print = options.print) (hdump : options'.dumpAst = options.dumpAst) :
    Agrees text name options options' (runOptions options files input)
      (runOptions options' files' (Text.utf8 text)) := by
  have hunits := Session.successes_of_widened (widened_input text name)
  rw [runOptions, runOptions, course_of_file hname hfile, course_of_input hnone]
  refine ⟨rfl, rfl, hunits, ?_, ?_⟩
  · simp only [Course.result, output_of_session, hunits, fileScanner,
      unitOutput_congr hprint hdump]
  · intro hcommented hsnippets hprompt
    have hsettings : fileSettings options text = inputSettings options' := by
      rw [inputSettings, fileSettings, hprompt, hsnippets]
      rfl
    show String.join ((Session.events _ _).map _) = String.join ((Session.events _ _).map _)
    rw [hsettings]
    exact congrArg String.join (errors_of_alike rfl (alike_input hcommented name))

def printing (file? : Option String) : Options :=
  ⟨file?, true, false, true, false⟩

/-- The wide character before the comment is one error in the file and two byte by byte. -/
theorem run_wide_file_agrees :
    (runOptions (printing none) (fun _ => .missing) (Text.utf8 "a é; b # ü")).output =
        (runOptions (printing (some "x")) (fun _ => .content (Text.utf8 "a é; b # ü"))
          []).output ∧
      (runOptions (printing none) (fun _ => .missing) (Text.utf8 "a é; b # ü")).errors ≠
        (runOptions (printing (some "x")) (fun _ => .content (Text.utf8 "a é; b # ü"))
          []).errors ∧
      (runOptions (printing none) (fun _ => .missing) (Text.utf8 "a ; b # ü")).errors =
        (runOptions (printing (some "x")) (fun _ => .content (Text.utf8 "a ; b # ü"))
          []).errors := by
  have hagrees (text : String) :
      Agrees text "x" (printing (some "x")) (printing none)
        (runOptions (printing (some "x")) (fun _ => .content (Text.utf8 text)) [])
        (runOptions (printing none) (fun _ => .missing) (Text.utf8 text)) :=
    run_file_agrees _ _ [] rfl rfl rfl rfl rfl
  exact ⟨(hagrees "a é; b # ü").output, by decide +kernel,
    (hagrees "a ; b # ü").errors (by decide) rfl rfl⟩

end CommandLine
end Kaleidoscope

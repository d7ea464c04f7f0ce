import Kaleidoscope.Proofs.CommandLine.Inputs
import Kaleidoscope.Proofs.Session.Rereading

/-!
# Reading printed units back

A run that prints the units it has read writes no separators between them.  Its
output is read as the same units unless two neighbours run together.
-/

namespace Kaleidoscope

theorem TopLevel.sameValues_length {units others : List TopLevel}
    (h : sameValues units others = true) : units.length = others.length := by
  induction units generalizing others with
  | nil =>
      cases others with
      | nil => rfl
      | cons other others => cases h
  | cons unit units ih =>
      cases others with
      | nil => cases h
      | cons other others =>
          have hrest := (Bool.and_eq_true_iff.mp h).right
          exact congrArg Nat.succ (ih hrest)

namespace CommandLine

/-- The text that a run over a file or over the standard input reads. -/
def IsGiven (options : Options) (files : String -> FileState) (input : List UInt8)
    (text : String) : Prop :=
  match options.file? with
  | none => input = Text.utf8 text
  | some name => files name = .content (Text.utf8 text)

theorem successes_of_file (text name : String) :
    successes (Session.outcomes (.start (.start (.ofString text) name))) =
      successes (parseSource text) := by
  have hname := Session.successes_of_widened (widened_input text name)
  have hunnamed := Session.successes_of_widened (widened_input text Scanner.unnamed)
  exact hname.symm.trans hunnamed

theorem unitOutput_printing {options : Options} (hprint : options.print = true)
    (hdump : options.dumpAst = false) (unit : TopLevel) :
    unitOutput options unit = unit.sourceForm ++ "\n" := by
  rw [unitOutput, hprint, hdump]
  exact String.append_empty

theorem run_printing {text : String} {options : Options} {files : String -> FileState}
    {input : List UInt8} (hprint : options.print = true) (hdump : options.dumpAst = false)
    (hgiven : IsGiven options files input text) :
    (runOptions options files input).output = printed (successes (parseSource text)) := by
  have hunits : unitOutput options = fun unit => unit.sourceForm ++ "\n" :=
    funext (unitOutput_printing hprint hdump)
  unfold IsGiven at hgiven
  cases hfile : options.file? with
  | none =>
      rw [hfile] at hgiven
      have hunnamed := Session.successes_of_widened (widened_input text Scanner.unnamed)
      rw [runOptions, course_of_input hfile, Course.result, output_of_session, hgiven, hunnamed,
        hunits]
      rfl
  | some name =>
      rw [hfile] at hgiven
      rw [runOptions, course_of_file hfile hgiven, Course.result, output_of_session, fileScanner,
        successes_of_file, hunits]
      rfl

def ReadsAs (text : String) (units : List TopLevel) : Prop :=
  exists others, parseSource text = others.map .ok ∧
    TopLevel.sameValues others units = true

/--
How the output of a printing run is read, by the units that it has printed: as
the same units if and only if no two neighbours run together, and otherwise, at
the first two that do, as the call of the one with the other.
-/
structure ReadsBack (units : List TopLevel) (output : String) : Prop where
  printed : output = printed units
  same :
    parseSource output = units.map .ok <-> forall place call, ¬ FusesAt units place call
  values : ReadsAs output units -> parseSource output = units.map .ok
  fused :
    forall place call, FusesAt units place call ->
      (forall earlier other, earlier < place -> ¬ FusesAt units earlier other) ->
      (parseSource output).take place = (units.take place).map .ok ∧
        (parseSource output)[place]? = some (.ok call)

theorem readsBack_printed {units : List TopLevel}
    (hunits : forall unit, unit ∈ units -> unit.Readable) :
    ReadsBack units (Kaleidoscope.printed units) := by
  rcases exists_rereads units with ⟨others, hrereads⟩
  have hparsed := parseSource_printed hrereads hunits
  have hcases := rereads_eq_or_shorter hrereads
  -- A unit is lost wherever two run together, so the length alone tells the cases apart.
  have hnone (hlength : others.length = units.length) : others = units ∧
      forall place call, ¬ FusesAt units place call := by
    rcases hcases with hsame | ⟨hshorter, _⟩
    · exact hsame
    · omega
  refine ⟨rfl, ⟨?_, ?_⟩, ?_, ?_⟩
  · intro hsame
    have hlength := congrArg List.length (hparsed.symm.trans hsame)
    rw [List.length_map, List.length_map] at hlength
    exact (hnone hlength).right
  · intro hapart
    rcases hcases with ⟨hsame, _⟩ | ⟨_, place, call, hfuses⟩
    · rw [hparsed, hsame]
    · exact absurd hfuses (hapart place call)
  · rintro ⟨others', hothers', hvalues⟩
    have hothers := congrArg successes (hparsed.symm.trans hothers')
    rw [successes_map_ok, successes_map_ok] at hothers
    rw [← hothers] at hvalues
    rw [hparsed, (hnone (TopLevel.sameValues_length hvalues)).left]
  · intro place call hfuses hfirst
    rcases rereads_first hrereads hfuses hfirst with ⟨htake, hcall⟩
    rw [hparsed, ← List.map_take, htake, List.getElem?_map, hcall]
    exact ⟨rfl, rfl⟩

/-- What a printing run puts out is read back unless two neighbours run together. -/
theorem run_readsBack {text : String} {options : Options} {files : String -> FileState}
    {input : List UInt8} (hprint : options.print = true) (hdump : options.dumpAst = false)
    (hgiven : IsGiven options files input text) :
    ReadsBack (successes (parseSource text)) (runOptions options files input).output := by
  rw [run_printing hprint hdump hgiven]
  exact readsBack_printed fun unit hmem => Session.readable_of_mem_successes hmem

theorem run_readsBack_fused :
    (parseSource (runOptions (printing none) (fun _ => .missing)
        (Text.utf8 "x; (a+b)")).output)[0]? =
      some (.ok (.expression ⟨.anonymous,
        .call "x" [.binary '+' (.var "a") (.var "b")]⟩)) := by
  have hunits : successes (parseSource "x; (a+b)") =
      [.expression ⟨.anonymous, .var "x"⟩,
        .expression ⟨.anonymous, .binary '+' (.var "a") (.var "b")⟩] := by
    decide +kernel
  have hreads : ReadsBack (successes (parseSource "x; (a+b)"))
      (runOptions (printing none) (fun _ => .missing) (Text.utf8 "x; (a+b)")).output :=
    run_readsBack rfl rfl rfl
  rw [hunits] at hreads
  exact (hreads.fused 0 _
    ⟨_, _, rfl, rfl, TopLevel.Fuses.expression .anonymous "x" .anonymous '+' _ _⟩
    fun earlier other hless => absurd hless (Nat.not_lt_zero earlier)).right

end CommandLine
end Kaleidoscope

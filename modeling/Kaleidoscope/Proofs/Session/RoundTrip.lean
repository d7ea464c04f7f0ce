import Kaleidoscope.Proofs.Grammar.Completeness
import Kaleidoscope.Proofs.Session.Rounds
import Kaleidoscope.Proofs.Tree.WellFormed

/-!
# Reading back what was read

The units that a session has read, written out with a semicolon between each
two, are read back as the same units and without an error.
-/

namespace Kaleidoscope

def joinedKinds : List TopLevel -> List Token.Kind
  | [] => []
  | [unit] => unit.kinds
  | unit :: next :: rest => unit.kinds ++ .character ';' :: joinedKinds (next :: rest)

theorem spells_joined {units : List TopLevel}
    (h : forall unit, unit ∈ units -> unit.Readable) :
    Spells (joined units).toList (joinedKinds units) := by
  induction units with
  | nil => exact Spells.done rfl
  | cons unit units ih =>
      have hunit := TopLevel.prepends_sourceForm (h unit List.mem_cons_self)
      have hothers := ih fun other hother => h other (List.mem_cons_of_mem unit hother)
      cases units with
      | nil =>
          have hspells := hunit [] [] separates_nil (Spells.done rfl)
          rw [List.append_nil, List.append_nil] at hspells
          rw [joined, List.map_singleton, String.intercalate_singleton]
          exact hspells
      | cons next units =>
          have htext : (joined (unit :: next :: units)).toList =
              unit.sourceForm.toList ++ ';' :: '\n' ::
                (joined (next :: units)).toList := by
            simp only [joined, List.map_cons, String.intercalate_cons_cons,
              String.toList_append, List.append_assoc]
            rfl
          have hblank : IsBlank '\n' := by simp [IsBlank]
          rw [htext]
          exact hunit _ _ (separates_cons rfl rfl _)
            (spells_semicolon (spells_blank hblank hothers))

namespace Session

/-!
# Sessions that read given units
-/

theorem follows_of_stops {operators : Operators} {kinds : List Token.Kind}
    {next : Token.Kind} (h : Stops operators kinds next) (unit : TopLevel) :
    Follows operators unit kinds next := by
  cases unit with
  | definition content => exact h
  | external prototype => trivial
  | expression content => exact h

section

variable {parser : Parser} {kinds after : List Token.Kind} {unit : TopLevel}
  {next : Token.Kind}

theorem topLevel_of_derives (hoperators : parser.operators = .standard)
    (hderives : Derives .standard kinds (.unit unit))
    (h : parser.tokens.map Token.kind = kinds ++ next :: after)
    (hfollows : Follows .standard unit kinds next) :
    exists rest, parser.topLevel = (.ok unit, rest) ∧
      rest.operators = .standard ∧ rest.tokens.map Token.kind = next :: after := by
  rcases Parser.reads_of_kinds h with ⟨rest, hreads, hrest⟩
  have hspares := Operators.standard_sparesDelimiters
  rw [← hoperators] at hfollows hderives hspares
  rw [← Parser.current_of_kinds hrest] at hfollows
  refine ⟨rest, Parser.topLevel_complete hspares hderives hreads hfollows, ?_, hrest⟩
  rw [Parser.reads_operators hreads]
  exact hoperators

theorem outcomes_of_derives (hoperators : parser.operators = .standard)
    (hderives : Derives .standard kinds (.unit unit))
    (h : parser.tokens.map Token.kind = kinds ++ next :: after)
    (hfollows : Follows .standard unit kinds next) :
    exists rest, outcomes parser = .ok unit :: outcomes rest ∧
      rest.operators = .standard ∧ rest.tokens.map Token.kind = next :: after := by
  rcases topLevel_of_derives hoperators hderives h hfollows with
    ⟨rest, hparsed, hsame, hrest⟩
  rcases derives_unit_begins hderives with ⟨first, others, hcons, hend, hsemicolon⟩
  rw [hcons] at h
  rw [← Parser.current_of_kinds h] at hend hsemicolon
  exact ⟨rest, outcomes_of_ok hend hsemicolon hparsed, hsame, hrest⟩

end

theorem not_isOperator_semicolon :
    ¬ Operators.standard.IsOperator (.character ';') := by
  rw [Operators.isOperator_iff]
  decide

theorem outcomes_of_kinds {units : List TopLevel}
    (hunits : forall unit, unit ∈ units -> unit.Readable) {parser : Parser}
    (hoperators : parser.operators = .standard)
    (h : parser.tokens.map Token.kind = joinedKinds units ++ [.endOfInput]) :
    outcomes parser = units.map .ok := by
  induction units generalizing parser with
  | nil => exact outcomes_of_end (Parser.current_of_kinds h)
  | cons unit units ih =>
      have hderives := unit.derives_kinds (hunits unit List.mem_cons_self)
      cases units with
      | nil =>
          have hstops : Stops .standard unit.kinds .endOfInput :=
            ⟨Operators.not_isOperator_endOfInput _, fun _ => nofun⟩
          rcases outcomes_of_derives hoperators hderives h (follows_of_stops hstops unit)
            with ⟨rest, houtcomes, _, hrest⟩
          rw [houtcomes, outcomes_of_end (Parser.current_of_kinds hrest)]
          rfl
      | cons other units =>
          have hstops : Stops .standard unit.kinds (.character ';') :=
            ⟨not_isOperator_semicolon, fun _ => by decide⟩
          rw [joinedKinds, List.append_assoc] at h
          rcases outcomes_of_derives hoperators hderives h (follows_of_stops hstops unit)
            with ⟨rest, houtcomes, hsame, hrest⟩
          have hatSemicolon := Parser.current_of_kinds hrest
          have hafter : rest.advance.operators = .standard := hsame
          have hothers := ih
            (fun value hmem => hunits value (List.mem_cons_of_mem unit hmem)) hafter
            (Parser.advance_kinds_of_cons hrest nofun)
          rw [houtcomes, outcomes_of_semicolon hatSemicolon, hothers]
          rfl

/-!
# Units that a session reads
-/

theorem readable_of_mem_outcomes {parser : Parser}
    (hoperators : parser.operators = .standard) (hscanned : parser.Scanned)
    {unit : TopLevel} (h : .ok unit ∈ outcomes parser) : unit.Readable := by
  revert hoperators hscanned
  revert h
  refine outcomes_induction
    (motive := fun parser found => .ok unit ∈ found -> parser.operators = .standard ->
      parser.Scanned -> unit.Readable)
    ?_ ?_ ?_ ?_ parser
  · intro parser _ h
    cases h
  · intro parser _ ih h hoperators _
    exact ih h hoperators parser.advance_scanned
  · intro parser value rest _ _ hparsed ih h hoperators hscanned
    have hreaches := Parser.reaches_of_topLevel hparsed
    rcases List.mem_cons.mp h with hsame | hmem
    · injection hsame with hsame
      have hwritable := Parser.topLevel_writable hscanned hparsed
      rw [hoperators] at hwritable
      rw [hsame]
      exact TopLevel.readable_of_writable hwritable
    · exact ih hmem ((Parser.reaches_operators hreaches).trans hoperators)
        (Parser.reaches_scanned hreaches hscanned)
  · intro parser error rest _ _ hfailed ih h hoperators _
    have hreaches := Parser.reaches_of_topLevel hfailed
    rcases List.mem_cons.mp h with hsame | hmem
    · cases hsame
    · exact ih hmem ((Parser.reaches_operators hreaches).trans hoperators)
        rest.advance_scanned

theorem readable_of_mem_successes {text : String} {unit : TopLevel}
    (h : unit ∈ successes (parseSource text)) : unit.Readable := by
  rcases List.mem_filterMap.mp h with ⟨outcome, hmem, hok⟩
  cases outcome with
  | error error => cases hok
  | ok value =>
      injection hok with hsame
      rw [hsame] at hmem
      exact readable_of_mem_outcomes rfl ⟨_, rfl⟩ hmem

end Session

theorem successes_map_ok (units : List TopLevel) :
    successes (units.map .ok) = units := by
  rw [successes, List.filterMap_map]
  exact List.filterMap_some

/--
The source forms of the units of a text, whatever else the text holds, are read
without an error and as the same units.
-/
theorem parseSource_joined (text : String) :
    parseSource (joined (successes (parseSource text))) =
        (successes (parseSource text)).map .ok ∧
      TopLevel.sameValues
        (successes (parseSource (joined (successes (parseSource text)))))
        (successes (parseSource text)) = true := by
  have hreadable : forall unit, unit ∈ successes (parseSource text) -> unit.Readable :=
    fun unit hmem => Session.readable_of_mem_successes hmem
  have hparsed : parseSource (joined (successes (parseSource text))) =
      (successes (parseSource text)).map .ok := by
    apply Session.outcomes_of_kinds hreadable rfl
    rw [Parser.start_tokens]
    exact tokenize_of_spells (spells_joined hreadable)
  constructor
  · exact hparsed
  · rw [hparsed, successes_map_ok]
    exact TopLevel.sameValues_self hreadable

end Kaleidoscope

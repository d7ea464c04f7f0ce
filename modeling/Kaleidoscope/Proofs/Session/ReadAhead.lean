import Kaleidoscope.Proofs.Parser.Locality
import Kaleidoscope.Proofs.Parser.ReadAhead
import Kaleidoscope.Proofs.Session.Interruption
import Kaleidoscope.Proofs.Session.Rounds

/-!
# What a session waits for

A session hands an outcome over as soon as it has read the token after the unit
and one character more.  So an outcome, and all that is written up to it, depend
on no character that was not pulled until then.
-/

namespace Kaleidoscope
namespace Session

/-!
# Rounds over what is shared
-/

section

variable {count : Nat} {parser other : Parser} {round : Round}

theorem roundOf_past (h : parser.Past count) (hround : RoundOf parser round) :
    round.next.Past count := by
  cases hround with
  | semicolon _ => exact Parser.advance_past parser h
  | unit _ hparsed => exact Parser.topLevel_past h hparsed
  | error _ hfailed => exact Parser.advance_past _ (Parser.topLevel_past h hfailed)

theorem rounds_past (h : parser.Past count) (hmem : round ∈ rounds parser) :
    round.next.Past count := by
  revert h
  revert hmem
  refine rounds_induction
    (motive := fun parser found => round ∈ found -> parser.Past count ->
      round.next.Past count) ?_ ?_ parser
  · intro parser _ hmem
    cases hmem
  · intro parser first _ hfirst ih hmem h
    have hnext := roundOf_past h hfirst
    rcases List.mem_cons.mp hmem with hsame | hmem
    · rw [hsame]
      exact hnext
    · exact ih hmem hnext

theorem round?_shares (h : parser.Shares count other) (hround : round? parser = some round) :
    round.next.Past count ∨
      exists round', round? other = some round' ∧ round'.outcome? = round.outcome? ∧
        round.next.Shares count round'.next := by
  have hcurrent := h.current
  rcases roundOf_of_round? hround with ⟨hend, hkind⟩
  rw [hcurrent] at hend
  cases hkind with
  | semicolon hsemicolon =>
      rw [hcurrent] at hsemicolon
      exact (Parser.advance_shares h).imp_right fun hnext =>
        ⟨_, round?_of_semicolon hsemicolon, rfl, hnext⟩
  | unit hsemicolon hparsed =>
      rw [hcurrent] at hsemicolon
      refine (Parser.topLevel_shares h hparsed).imp_right ?_
      rintro ⟨rest', hparsed', hrest⟩
      refine ⟨⟨_, rest'⟩, ?_, rfl, hrest⟩
      rw [round?_of_unit hend hsemicolon, hparsed']
  | error hsemicolon hfailed =>
      rw [hcurrent] at hsemicolon
      rcases Parser.topLevel_shares h hfailed with hpast | ⟨rest', hfailed', hrest⟩
      · exact Or.inl (Parser.advance_past _ hpast)
      · refine (Parser.advance_shares hrest).imp_right fun hnext => ?_
        refine ⟨⟨_, rest'.advance⟩, ?_, rfl, hnext⟩
        rw [round?_of_unit hend hsemicolon, hfailed']

theorem round?_of_rounds_cons {first : Round} {others : List Round}
    (h : rounds parser = first :: others) :
    round? parser = some first ∧ others = rounds first.next := by
  rw [rounds_eq] at h
  cases hround : round? parser with
  | none =>
      rw [hround] at h
      cases h
  | some found =>
      rw [hround] at h
      injection h with hfirst hothers
      rw [hfirst] at hothers ⊢
      exact ⟨rfl, hothers.symm⟩

theorem rounds_of_round? (h : round? parser = some round) :
    rounds parser = round :: rounds round.next := by
  rw [rounds_eq, h]

/-- Up to a round that ends within what is shared, all rounds have the same outcomes. -/
theorem rounds_shares {front after : List Round} (h : parser.Shares count other)
    (hrounds : rounds parser = front ++ round :: after) (hwithin : ¬ round.next.Past count) :
    exists front' round' after', rounds other = front' ++ round' :: after' ∧
      front'.map Round.outcome? = front.map Round.outcome? ∧
      round'.outcome? = round.outcome? := by
  induction front generalizing parser other with
  | nil =>
      rcases round?_of_rounds_cons hrounds with ⟨hround, _⟩
      rcases (round?_shares h hround).resolve_left hwithin with
        ⟨round', hround', houtcome, _⟩
      exact ⟨[], round', _, rounds_of_round? hround', rfl, houtcome⟩
  | cons first front ih =>
      rcases round?_of_rounds_cons hrounds with ⟨hfirst, hothers⟩
      have hmem : round ∈ rounds first.next := by
        rw [← hothers]
        exact List.mem_append_right front List.mem_cons_self
      have hopen : ¬ first.next.Past count := fun hpast => hwithin (rounds_past hpast hmem)
      rcases (round?_shares h hfirst).resolve_left hopen with
        ⟨first', hfirst', houtcome, hnext⟩
      rcases ih hnext hothers.symm with ⟨front', round', after', hrounds', hfront, hround⟩
      refine ⟨first' :: front', round', after', ?_, ?_, hround⟩
      · rw [rounds_of_round? hfirst', hrounds', List.cons_append]
      · rw [List.map_cons, List.map_cons, hfront, houtcome]

theorem rounds_reached (hmem : round ∈ rounds parser) :
    exists requests, round.next = parser.after requests := by
  revert hmem
  refine rounds_induction
    (motive := fun parser found => round ∈ found ->
      exists requests, round.next = parser.after requests) ?_ ?_ parser
  · intro parser _ hmem
    cases hmem
  · intro parser first _ hfirst ih hmem
    have hnext : exists requests, first.next = parser.after requests := by
      cases hfirst with
      | semicolon _ => exact ⟨[.advance], rfl⟩
      | @unit unit rest _ hparsed =>
          refine ⟨[.topLevel], ?_⟩
          show rest = (Parser.failureOf parser.topLevel).2
          rw [hparsed]
          rfl
      | @error error rest _ hfailed =>
          refine ⟨[.topLevel, .advance], ?_⟩
          show rest.advance = (Parser.failureOf parser.topLevel).2.advance
          rw [hfailed]
          rfl
    rcases List.mem_cons.mp hmem with hsame | hmem
    · rw [hsame]
      exact hnext
    · rcases hnext with ⟨requests, hrequests⟩
      rcases ih hmem with ⟨further, hfurther⟩
      refine ⟨requests ++ further, ?_⟩
      rw [hfurther, hrequests, Parser.after, Parser.after, Parser.after, List.foldl_append]

end

/-!
# Events up to a delivery
-/

def eventsUpTo (settings : Settings) (front : List Round) (outcome : Outcome) : List Event :=
  prompt settings ++ front.flatMap (roundEvents settings) ++
    outcomeEvents settings.style outcome

section

variable {scanner : Scanner} {front after : List Round} {round : Round} {outcome : Outcome}

theorem events_upTo (settings : Settings)
    (hrounds : rounds (.start scanner) = front ++ round :: after)
    (houtcome : round.outcome? = some outcome) :
    exists further, events settings scanner = eventsUpTo settings front outcome ++ further := by
  refine ⟨prompt settings ++ after.flatMap (roundEvents settings) ++ [.flush], ?_⟩
  rw [events, hrounds, List.flatMap_append, List.flatMap_cons, roundEvents, houtcome]
  simp only [eventsUpTo, Option.map_some, Option.getD_some, List.append_assoc]

theorem roundEvents_flatMap (settings : Settings) (rounds : List Round) :
    rounds.flatMap (roundEvents settings) =
      (rounds.map Round.outcome?).flatMap fun outcome? =>
        (outcome?.map (outcomeEvents settings.style)).getD [] ++ prompt settings := by
  rw [List.flatMap_map]
  rfl

theorem eventsUpTo_congr (settings : Settings) {front' : List Round}
    (h : front'.map Round.outcome? = front.map Round.outcome?) :
    eventsUpTo settings front' outcome = eventsUpTo settings front outcome := by
  rw [eventsUpTo, eventsUpTo, roundEvents_flatMap, roundEvents_flatMap, h]

theorem completed_upTo (settings : Settings) (front : List Round) (outcome : Outcome) :
    exists earlier,
      (completed 0 (eventsUpTo settings front outcome)).deliveries = earlier ++
        [⟨(completed 0 (eventsUpTo settings front outcome)).diagnostics.length, outcome⟩] ∧
      earlier.length = (front.filterMap Round.outcome?).length := by
  let reported := prompt settings ++ front.flatMap (roundEvents settings) ++
    [.write (report settings.style outcome)]
  have hsplit : eventsUpTo settings front outcome = reported ++ [.deliver outcome] := by
    simp only [reported, eventsUpTo, outcomeEvents, List.append_assoc, List.cons_append,
      List.nil_append]
  rw [hsplit, completed_append, completed_one, Nat.zero_add]
  refine ⟨(completed 0 reported).deliveries, ?_, ?_⟩
  · simp only [Transcript.followedBy_deliveries, Transcript.followedBy_diagnostics,
      Event.trace, Transcript.afterDelivery, Transcript.empty, List.append_nil]
  · rw [← List.length_map Delivery.outcome, completed_outcomes, List.filterMap_append,
      List.filterMap_append, prompt_outcomes, roundEvents_outcomes]
    exact congrArg List.length (List.append_nil _)

end

/-!
# Transcripts up to a delivery
-/

def deliveringRounds (parser : Parser) : List Round :=
  (rounds parser).filter fun round => round.outcome?.isSome

/-- The transcripts are the same up to the delivery with the given index. -/
structure Transcript.SameUpTo (index : Nat) (transcript other : Transcript) : Prop where
  deliveries : other.deliveries.take (index + 1) = transcript.deliveries.take (index + 1)
  diagnostics {delivery : Delivery} : transcript.deliveries[index]? = some delivery ->
    other.diagnostics.take delivery.written = transcript.diagnostics.take delivery.written

theorem perform_sameUpTo (limits : Limits) {done : List Event} {earlier : List Delivery}
    {outcome : Outcome}
    (hdone : (completed 0 done).deliveries =
      earlier ++ [⟨(completed 0 done).diagnostics.length, outcome⟩])
    (events others : List Event) :
    (conclude ((perform limits (done ++ events)).run (.empty none))).SameUpTo earlier.length
      (conclude ((perform limits (done ++ others)).run (.empty none))) := by
  rw [perform_append, perform_append, EStateM.run_bind, EStateM.run_bind]
  cases hresult : (perform limits done).run (.empty none) with
  | error failure rest => exact ⟨rfl, fun _ => rfl⟩
  | ok _ rest =>
      have hrest : rest = completed 0 done :=
        (perform_ok rfl hresult).trans (Transcript.empty_followedBy _ _)
      have hclean : rest.failure? = none := by
        rw [hrest]
        exact completed_failure 0 done
      rcases perform_extends limits hclean events with ⟨more, hmore⟩
      rcases perform_extends limits hclean others with ⟨further, hfurther⟩
      show (conclude ((perform limits events).run rest)).SameUpTo _
        (conclude ((perform limits others).run rest))
      rw [hmore, hfurther, hrest]
      have hlength : (completed 0 done).deliveries.length = earlier.length + 1 := by
        rw [hdone, List.length_append]
        rfl
      constructor
      · rw [Transcript.followedBy_deliveries, Transcript.followedBy_deliveries, ← hlength,
          List.take_left, List.take_left]
      · intro delivery hdelivery
        rw [Transcript.followedBy_deliveries, hdone, List.append_assoc,
          List.getElem?_append_right (Nat.le_refl _), Nat.sub_self] at hdelivery
        injection hdelivery with hlast
        rw [← hlast, Transcript.followedBy_diagnostics, Transcript.followedBy_diagnostics,
          List.take_left, List.take_left]

theorem exists_front {all : List Round} {index : Nat} {round : Round}
    (h : (all.filter fun round => round.outcome?.isSome)[index]? = some round) :
    exists front after outcome, all = front ++ round :: after ∧
      (front.filterMap Round.outcome?).length = index ∧ round.outcome? = some outcome := by
  induction all generalizing index with
  | nil => cases h
  | cons first all ih =>
      cases hfirst : first.outcome? with
      | none =>
          rw [List.filter_cons_of_neg (by simp [hfirst])] at h
          rcases ih h with ⟨front, after, outcome, hall, hindex, houtcome⟩
          refine ⟨first :: front, after, outcome, congrArg (first :: ·) hall, ?_, houtcome⟩
          rw [List.filterMap_cons_none hfirst, hindex]
      | some delivered =>
          rw [List.filter_cons_of_pos (by simp [hfirst])] at h
          cases index with
          | zero =>
              injection h with hsame
              rw [hsame] at hfirst ⊢
              exact ⟨[], all, delivered, rfl, rfl, hfirst⟩
          | succ index =>
              rcases ih h with ⟨front, after, outcome, hall, hindex, houtcome⟩
              refine ⟨first :: front, after, outcome, congrArg (first :: ·) hall, ?_,
                houtcome⟩
              rw [List.filterMap_cons_some hfirst, List.length_cons, hindex]

theorem deliveringRounds_outcomes (parser : Parser) :
    (deliveringRounds parser).map Round.outcome? = (outcomes parser).map some := by
  rw [deliveringRounds, outcomes]
  induction rounds parser with
  | nil => rfl
  | cons first all ih =>
      cases hfirst : first.outcome? with
      | none =>
          rw [List.filter_cons_of_neg (by simp [hfirst]), List.filterMap_cons_none hfirst, ih]
      | some delivered =>
          rw [List.filter_cons_of_pos (by simp [hfirst]), List.filterMap_cons_some hfirst,
            List.map_cons, List.map_cons, hfirst, ih]

theorem exists_deliveringRound {limits : Limits} {settings : Settings} {scanner : Scanner}
    {index : Nat} {delivery : Delivery}
    (h : (run limits settings scanner).deliveries[index]? = some delivery) :
    exists round, (deliveringRounds (.start scanner))[index]? = some round ∧
      round.outcome? = some delivery.outcome := by
  rcases (leaves_partial (run_leaves limits settings scanner)).right with
    ⟨further, hfurther⟩
  have hindex := (List.getElem?_eq_some_iff.mp h).choose
  have hall : (completed 0 (events settings scanner)).deliveries[index]? = some delivery := by
    rw [← hfurther, List.getElem?_append_left hindex]
    exact h
  have houtcome : ((deliveringRounds (.start scanner)).map Round.outcome?)[index]? =
      some (some delivery.outcome) := by
    rw [deliveringRounds_outcomes, ← events_outcomes settings, ← completed_outcomes 0,
      List.map_map, List.getElem?_map, hall]
    rfl
  rw [List.getElem?_map] at houtcome
  exact Option.map_eq_some_iff.mp houtcome

/-- What a session has pulled from its source, and what follows from that alone. -/
structure Causal (source : Source) (file : String) : Prop where
  asked (requests : List Parser.Request) :
    let parser := (Parser.start (.start source file)).after requests
    exists got, (Cursor.start source).Asks got parser.scanner.cursor ∧
      parser.scanner.cursor.pulled = got.countP Option.isSome
  pulled (requests : List Parser.Request) :
    let parser := (Parser.start (.start source file)).after requests
    let length := (Source.charsOf source.answers).length
    length < Nat.pow 2 32 ->
      parser.scanner.cursor.pulled =
        if parser.current.stop < length then
          parser.current.stop + 1
        else
          parser.current.stop
  reached {round : Round} : round ∈ rounds (.start (.start source file)) ->
    exists requests, round.next = (Parser.start (.start source file)).after requests
  delivered {limits : Limits} {settings : Settings} {index : Nat} {delivery : Delivery} :
    (run limits settings (.start source file)).deliveries[index]? = some delivery ->
      exists round, (deliveringRounds (.start (.start source file)))[index]? = some round ∧
        round.outcome? = some delivery.outcome
  sameUpTo {index : Nat} {round : Round} {other : Source} (limits : Limits)
      (settings : Settings) :
    (deliveringRounds (.start (.start source file)))[index]? = some round ->
      round.next.scanner.cursor.lookahead ≠ none ->
      (Source.charsOf other.answers).take round.next.scanner.cursor.pulled =
        (Source.charsOf source.answers).take round.next.scanner.cursor.pulled ->
      (run limits settings (.start source file)).SameUpTo index
        (run limits settings (.start other file))

theorem run_sameUpTo {source other : Source} {file : String} {index : Nat} {round : Round}
    (limits : Limits) (settings : Settings)
    (hround : (deliveringRounds (.start (.start source file)))[index]? = some round)
    (hopen : round.next.scanner.cursor.lookahead ≠ none)
    (hsame : (Source.charsOf other.answers).take round.next.scanner.cursor.pulled =
      (Source.charsOf source.answers).take round.next.scanner.cursor.pulled) :
    (run limits settings (.start source file)).SameUpTo index
      (run limits settings (.start other file)) := by
  rcases exists_front hround with ⟨front, after, outcome, hrounds, hindex, houtcome⟩
  have hmem : round ∈ rounds (.start (.start source file)) := by
    rw [hrounds]
    exact List.mem_append_right front List.mem_cons_self
  rcases rounds_reached hmem with ⟨requests, hrequests⟩
  have hreading := Parser.after_reading source file requests
  rw [← hrequests] at hreading
  have hwithin : ¬ round.next.Past round.next.scanner.cursor.pulled :=
    fun hpast => hpast.elim (Nat.lt_irrefl _) hopen
  have hcursor := Cursor.start_shares (Parser.pulled_le hreading) hsame
  have hstart := Parser.start_shares
    (⟨rfl, hcursor⟩ : (Scanner.start source file).Shares _ (Scanner.start other file))
  have hshares := hstart.resolve_left fun hpast => hwithin (rounds_past hpast hmem)
  rcases rounds_shares hshares hrounds hwithin with
    ⟨front', round', after', hrounds', hfront, hround'⟩
  rcases events_upTo settings hrounds houtcome with ⟨further, hevents⟩
  rcases events_upTo settings hrounds' (hround'.trans houtcome) with
    ⟨others, hothers⟩
  rw [eventsUpTo_congr settings hfront] at hothers
  rcases completed_upTo settings front outcome with ⟨earlier, hdone, hlength⟩
  rw [run, run, session_eq, session_eq, hevents, hothers, ← hindex, ← hlength]
  exact perform_sameUpTo limits hdone further others

/--
Each outcome is handed over before more than one character behind the lookahead
is pulled, and no other character could have changed what was done by then.
-/
theorem run_causal (source : Source) (file : String) : Causal source file where
  asked requests := by
    rcases (Parser.after_reading source file requests).asked with ⟨got, hgot⟩
    exact ⟨got, hgot, (Cursor.asks_pulled hgot).trans (Nat.zero_add _)⟩
  pulled requests := by
    intro parser length hlength
    exact Parser.pulled_eq (Parser.after_reading source file requests)
      (Nat.le_sub_one_of_lt hlength)
  reached := rounds_reached
  delivered := exists_deliveringRound
  sameUpTo := run_sameUpTo

theorem run_causal_call :
    (run .unlimited ⟨true, .plain⟩ (.start (.ofString "f(x);y") "shell")).SameUpTo 0
      (run .unlimited ⟨true, .plain⟩ (.start (.ofString "f(x);y + z") "shell")) := by
  have hround : exists round,
      (deliveringRounds (.start (.start (.ofString "f(x);y") "shell")))[0]? = some round ∧
        round.next.scanner.cursor = ⟨some 'y', ⟨[]⟩, 6⟩ :=
    ⟨_, rfl, rfl⟩
  rcases hround with ⟨round, hround, hcursor⟩
  refine (run_causal (.ofString "f(x);y") "shell").sameUpTo .unlimited ⟨true, .plain⟩ hround
    ?_ ?_
  · rw [hcursor]
    exact nofun
  · rw [hcursor]
    decide

end Session
end Kaleidoscope

import Kaleidoscope.Proofs.Session.ReadAhead

/-!
# What is settled

A round that is over before the end of the input was met is the same whatever
characters come later.  So what a session does in such rounds can be done before
more input is there.
-/

namespace Kaleidoscope
namespace Session

section

variable {count : Nat} {parser other : Parser} {round : Round}

theorem settled_shares (h : parser.Shares count other)
    (hwithin : forall round, round ∈ rounds parser -> round.isSettled = true ->
      ¬ round.next.Past count) :
    ((rounds parser).takeWhile Round.isSettled).map Round.outcome? <+:
      ((rounds other).takeWhile Round.isSettled).map Round.outcome? := by
  generalize hfound : rounds parser = found at hwithin
  -- A settled round ends within what is shared, so the other session goes through it too.
  induction found generalizing parser other with
  | nil => exact List.nil_prefix
  | cons first found ih =>
      cases hsettled : first.isSettled with
      | false =>
          rw [List.takeWhile_cons_of_neg (Bool.not_eq_true _ ▸ hsettled)]
          exact List.nil_prefix
      | true =>
          rcases round?_of_rounds_cons hfound with ⟨hfirst, hothers⟩
          have hopen := hwithin first List.mem_cons_self hsettled
          rcases (round?_shares h hfirst).resolve_left hopen with
            ⟨first', hfirst', houtcome, hnext⟩
          have hsettled' : first'.isSettled = true := by
            rw [Round.isSettled, ← hnext.scanner.cursor.lookahead]
            exact hsettled
          rw [rounds_of_round? hfirst', List.takeWhile_cons_of_pos hsettled,
            List.takeWhile_cons_of_pos hsettled', List.map_cons, List.map_cons, houtcome]
          apply (List.prefix_cons_inj _).mpr
          exact ih hnext hothers.symm fun round hmem =>
            hwithin round (List.mem_cons_of_mem _ hmem)

end

section

variable {source other : Source}

theorem not_past_of_isSettled {file : String} {round : Round}
    (hmem : round ∈ rounds (.start (.start source file))) (h : round.isSettled = true) :
    ¬ round.next.Past (Source.charsOf source.answers).length := by
  rcases rounds_reached hmem with ⟨requests, hrequests⟩
  have hreading := Parser.after_reading source file requests
  rw [← hrequests] at hreading
  intro hpast
  rcases hpast with hmore | hend
  · exact Nat.not_lt.mpr (Parser.pulled_le hreading) hmore
  · rw [Round.isSettled, hend] at h
    cases h

theorem settled_outcomes (file : String)
    (h : Source.charsOf source.answers <+: Source.charsOf other.answers) :
    ((rounds (.start (.start source file))).takeWhile Round.isSettled).map Round.outcome? <+:
      ((rounds (.start (.start other file))).takeWhile Round.isSettled).map
        Round.outcome? := by
  have hsame : (Source.charsOf other.answers).take (Source.charsOf source.answers).length =
      (Source.charsOf source.answers).take (Source.charsOf source.answers).length := by
    rw [← List.prefix_iff_eq_take.mp h, List.take_length]
  have hcursor := Cursor.start_shares (Nat.le_refl _) hsame
  have hstart := Parser.start_shares
    (⟨rfl, hcursor⟩ : (Scanner.start source file).Shares _ (Scanner.start other file))
  rcases hstart with hpast | hshares
  · cases hrounds : rounds (.start (.start source file)) with
    | nil => exact List.nil_prefix
    | cons first others =>
        have hmem : first ∈ rounds (.start (.start source file)) := by
          rw [hrounds]
          exact List.mem_cons_self
        have hunsettled : ¬ first.isSettled = true := fun hsettled =>
          not_past_of_isSettled hmem hsettled (rounds_past hpast hmem)
        rw [List.takeWhile_cons_of_neg hunsettled]
        exact List.nil_prefix
  · exact settled_shares hshares fun round hmem => not_past_of_isSettled hmem

/-- What is settled is done first, whatever characters come later. -/
theorem settledEvents_grow (settings : Settings) (file : String)
    (h : Source.charsOf source.answers <+: Source.charsOf other.answers) :
    settledEvents settings (.start source file) <+:
      settledEvents settings (.start other file) := by
  rcases settled_outcomes file h with ⟨further, hfurther⟩
  rw [settledEvents, settledEvents, roundEvents_flatMap, roundEvents_flatMap, ← hfurther,
    List.flatMap_append, ← List.append_assoc]
  exact List.prefix_append _ _

theorem settledEvents_prefix_events (settings : Settings) (scanner : Scanner) :
    settledEvents settings scanner <+: events settings scanner := by
  rcases List.takeWhile_prefix Round.isSettled (l := rounds (.start scanner)) with
    ⟨further, hfurther⟩
  rw [events, ← hfurther, List.flatMap_append, ← List.append_assoc, List.append_assoc]
  exact List.prefix_append _ _

end

end Session
end Kaleidoscope

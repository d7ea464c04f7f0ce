import Kaleidoscope.Proofs.Session.Loop

/-!
# Interrupted sessions

A session that is interrupted has done what it does without limits, up to the
event that failed.  Every outcome is handed over right after its report, so the
bytes that were written tell which outcomes were handed over.
-/

namespace Kaleidoscope
namespace Session

/-!
# Reports before deliveries
-/

/-- Every delivery comes right after the report of its outcome. -/
inductive Reported (style : Style) : List Event -> Prop where
  | nothing : Reported style []
  | write (text : String) {events : List Event} :
      Reported style events -> Reported style (.write text :: events)
  | flush {events : List Event} :
      Reported style events -> Reported style (.flush :: events)
  | outcome (outcome : Outcome) {events : List Event} :
      Reported style events ->
      Reported style (.write (report style outcome) :: .deliver outcome :: events)

section

variable {style : Style} {events others : List Event}

theorem reported_append (h : Reported style events) (hothers : Reported style others) :
    Reported style (events ++ others) := by
  induction h with
  | nothing => exact hothers
  | write text _ ih => exact Reported.write text ih
  | flush _ ih => exact Reported.flush ih
  | outcome outcome _ ih => exact Reported.outcome outcome ih

theorem reported_prompt (settings : Settings) :
    Reported style (prompt settings) := by
  unfold prompt
  split
  · exact Reported.write _ (Reported.flush Reported.nothing)
  · exact Reported.nothing

theorem reported_roundEvents (settings : Settings) (round : Round) :
    Reported settings.style (roundEvents settings round) := by
  apply reported_append _ (reported_prompt settings)
  rcases round with ⟨_ | outcome, next⟩
  · exact Reported.nothing
  · exact Reported.outcome outcome Reported.nothing

theorem reported_rounds (settings : Settings) (rounds : List Round) :
    Reported settings.style (rounds.flatMap (roundEvents settings)) := by
  induction rounds with
  | nil => exact Reported.nothing
  | cons round rounds ih =>
      rw [List.flatMap_cons]
      exact reported_append (reported_roundEvents settings round) ih

theorem reported_events (settings : Settings) (scanner : Scanner) :
    Reported settings.style (Session.events settings scanner) :=
  reported_append
    (reported_append (reported_prompt settings) (reported_rounds settings _))
    (Reported.flush Reported.nothing)

/-- Events may be cut anywhere but between a report and its delivery. -/
theorem reported_after {before after : List Event} {event : Event}
    (h : Reported style (before ++ event :: after))
    (hevent : forall text, event ≠ .write text) : Reported style after := by
  generalize happend : before ++ event :: after = events at h
  induction h generalizing before with
  | nothing => cases List.append_ne_nil_of_right_ne_nil before (List.cons_ne_nil _ _) happend
  | write text _ ih =>
      cases before with
      | nil =>
          injection happend with hhead _
          exact absurd hhead (hevent text)
      | cons first before =>
          injection happend with _ htail
          exact ih htail
  | flush hrest ih =>
      cases before with
      | nil =>
          injection happend with _ htail
          rw [htail]
          exact hrest
      | cons first before =>
          injection happend with _ htail
          exact ih htail
  | outcome outcome hrest ih =>
      rcases before with _ | ⟨first, _ | ⟨second, before⟩⟩
      · injection happend with hhead _
        exact absurd hhead (hevent _)
      · injection happend with _ htail
        injection htail with _ htail
        rw [htail]
        exact hrest
      · injection happend with _ htail
        injection htail with _ htail
        exact ih htail

end

/-!
# Bytes at a delivery
-/

theorem report_ne_nil (style : Style) (outcome : Outcome) :
    Text.utf8 (report style outcome) ≠ [] := by
  apply Text.utf8_ne_nil
  rcases outcome with error | unit
  · simp [report, errorReport, errorLine]
  · cases unit with
    | definition _ | external _ | expression _ => simp [report, unitReport]

section

variable {written : Nat} {events : List Event} {delivery : Delivery}

theorem written_le (h : delivery ∈ (completed written events).deliveries) :
    written ≤ delivery.written := by
  induction events generalizing written with
  | nil => cases h
  | cons event events ih =>
      rcases List.mem_append.mp h with hfirst | hrest
      · cases event with
        | write text | flush => cases hfirst
        | deliver outcome =>
            have hwritten := congrArg Delivery.written (List.mem_singleton.mp hfirst)
            exact Nat.le_of_eq hwritten.symm
      · exact Nat.le_trans (Nat.le_add_right _ _) (ih hrest)

theorem written_le_total (h : delivery ∈ (completed written events).deliveries) :
    delivery.written ≤ written + (completed written events).diagnostics.length := by
  induction events generalizing written with
  | nil => cases h
  | cons event events ih =>
      rcases List.mem_append.mp h with hfirst | hrest
      · cases event with
        | write text | flush => cases hfirst
        | deliver outcome =>
            rw [List.mem_singleton.mp hfirst]
            exact Nat.le_add_right _ _
      · have htotal := ih hrest
        rw [completed, Transcript.followedBy_diagnostics, List.length_append]
        omega

theorem completed_write (written : Nat) (text : String) (events : List Event) :
    completed written (.write text :: events) =
      (completed (written + (Text.utf8 text).length) events).afterWrite (Text.utf8 text) := by
  rw [completed, trace_write_length, afterWrite_eq]
  rfl

theorem completed_deliver (written : Nat) (outcome : Outcome) (events : List Event) :
    completed written (.deliver outcome :: events) =
      (completed written events).afterDelivery ⟨written, outcome⟩ := by
  rw [afterDelivery_eq]
  rfl

theorem completed_flush (written : Nat) (events : List Event) :
    completed written (.flush :: events) = (completed written events).afterFlush := by
  rw [afterFlush_eq]
  rfl

theorem lt_written {style : Style} (hreported : Reported style events)
    (h : delivery ∈ (completed written events).deliveries) : written < delivery.written := by
  induction hreported generalizing written with
  | nothing => cases h
  | write text _ ih =>
      rw [completed_write] at h
      exact Nat.lt_of_le_of_lt (Nat.le_add_right _ _) (ih h)
  | flush _ ih =>
      rw [completed_flush] at h
      exact ih h
  | outcome outcome _ ih =>
      have hpos := List.length_pos_iff.mpr (report_ne_nil style outcome)
      rw [completed_write, completed_deliver] at h
      rcases List.mem_cons.mp h with hfirst | hrest
      · rw [hfirst]
        exact Nat.lt_add_of_pos_right hpos
      · exact Nat.lt_trans (Nat.lt_add_of_pos_right hpos) (ih hrest)

theorem take_after_write {text : String}
    (h : delivery ∈ (completed (written + (Text.utf8 text).length) events).deliveries)
    {rest : List UInt8} :
    (Text.utf8 text ++ rest).take (delivery.written - written) =
      Text.utf8 text ++
        rest.take (delivery.written - (written + (Text.utf8 text).length)) := by
  have hle := written_le h
  rw [List.take_append, List.take_of_length_le (by omega), Nat.sub_add_eq]

/-- What is written up to a delivery ends with its report. -/
theorem take_written {style : Style} (hreported : Reported style events)
    (h : delivery ∈ (completed written events).deliveries) :
    exists front, (completed written events).diagnostics.take (delivery.written - written) =
      front ++ Text.utf8 (report style delivery.outcome) := by
  induction hreported generalizing written with
  | nothing => cases h
  | write text _ ih =>
      rw [completed_write] at h ⊢
      rcases ih h with ⟨front, hfront⟩
      exists Text.utf8 text ++ front
      rw [List.append_assoc, ← hfront]
      exact take_after_write h
  | flush _ ih =>
      rw [completed_flush] at h ⊢
      exact ih h
  | outcome outcome _ ih =>
      rw [completed_write, completed_deliver] at h ⊢
      rcases List.mem_cons.mp h with hfirst | hrest
      · exists []
        rw [hfirst, Nat.add_sub_cancel_left]
        exact List.take_left
      · rcases ih hrest with ⟨front, hfront⟩
        exists Text.utf8 (report style outcome) ++ front
        rw [List.append_assoc, ← hfront]
        exact take_after_write hrest

end

/-!
# What was done before a failure
-/

section

variable {limits : Limits} {style : Style} {events : List Event} {transcript : Transcript}

theorem refuse_partial {done last : Transcript} {event : Event}
    (h : limits.Refuse done event last) (rest : Transcript) :
    last.diagnostics <+:
        ((event.trace done.diagnostics.length).followedBy rest).diagnostics ∧
      last.deliveries <+:
        ((event.trace done.diagnostics.length).followedBy rest).deliveries := by
  cases h with
  | @sinkFull text room _ _ =>
      constructor
      · simp only [Transcript.afterWrite, Transcript.empty, List.append_nil, Event.trace,
          Transcript.followedBy_diagnostics]
        exact (List.take_prefix _ _).trans (List.prefix_append _ _)
      · exact List.nil_prefix
  | flushFailed _ => exact ⟨List.nil_prefix, List.nil_prefix⟩
  | deliveryFailed _ => exact ⟨List.nil_prefix, List.prefix_append _ _⟩

theorem leaves_partial (h : Leaves limits events transcript) :
    transcript.diagnostics <+: (completed 0 events).diagnostics ∧
      transcript.deliveries <+: (completed 0 events).deliveries := by
  cases h with
  | complete _ => exact ⟨List.prefix_rfl, List.prefix_rfl⟩
  | @cut before after event last happend _ hrefuse =>
      rw [happend, completed_append, completed, Nat.zero_add]
      rcases refuse_partial hrefuse _ with ⟨hdiagnostics, hdeliveries⟩
      constructor
      · exact (List.prefix_append_right_inj _).mpr hdiagnostics
      · exact (List.prefix_append_right_inj _).mpr hdeliveries

theorem refuse_delivered_iff {done last : Transcript} {event : Event} {after : List Event}
    (h : limits.Refuse done event last)
    (hreported : (forall text, event ≠ .write text) -> Reported style after)
    {index : Nat} {delivery : Delivery}
    (hdelivery : (completed done.diagnostics.length (event :: after)).deliveries[index]? =
      some delivery) :
    index < last.deliveries.length <->
      delivery.written ≤ done.diagnostics.length + last.diagnostics.length := by
  cases h with
  | @sinkFull text room _ hless =>
      rw [completed_write] at hdelivery
      have hwritten := written_le (List.mem_of_getElem? hdelivery)
      have hlength : (Text.utf8 text |>.take (room - done.diagnostics.length)).length =
          room - done.diagnostics.length := by
        rw [List.length_take]
        omega
      simp only [Transcript.afterWrite, Transcript.empty, List.append_nil, hlength,
        List.length_nil, Nat.not_lt_zero, false_iff]
      omega
  | flushFailed _ =>
      rw [completed_flush] at hdelivery
      have hafter := hreported fun text hsame => Event.noConfusion hsame
      have hwritten := lt_written hafter (List.mem_of_getElem? hdelivery)
      simp only [Transcript.afterFlush, Transcript.empty, List.length_nil,
        Nat.not_lt_zero, Nat.add_zero, false_iff, Nat.not_le]
      exact hwritten
  | @deliveryFailed outcome _ =>
      rw [completed_deliver] at hdelivery
      simp only [Transcript.afterDelivery, Transcript.empty, List.length_cons,
        List.length_nil, Nat.add_zero]
      cases index with
      | zero =>
          injection hdelivery with hsame
          rw [← hsame]
          exact iff_of_true Nat.zero_lt_one (Nat.le_refl _)
      | succ index =>
          have hrest : (completed done.diagnostics.length after).deliveries[index]? =
              some delivery := hdelivery
          have hafter := hreported fun text hsame => Event.noConfusion hsame
          have hwritten := lt_written hafter (List.mem_of_getElem? hrest)
          omega

theorem leaves_failure_iff (h : Leaves limits events transcript) :
    transcript.failure? = none <-> limits.Allow (completed 0 events) := by
  cases h with
  | complete hallow => exact iff_of_true (completed_failure 0 events) hallow
  | cut happend _ hrefuse =>
      apply iff_of_false
      · cases hrefuse with
        | sinkFull _ _ | flushFailed _ | deliveryFailed _ => nofun
      · rw [happend, completed_append, completed]
        exact not_allow_of_refuse hrefuse

/-- An outcome is handed over if its whole report was written, and only then. -/
theorem leaves_delivered_iff (h : Leaves limits events transcript)
    (hreported : Reported style events) {index : Nat} {delivery : Delivery}
    (hdelivery : (completed 0 events).deliveries[index]? = some delivery) :
    index < transcript.deliveries.length <->
      delivery.written ≤ transcript.diagnostics.length := by
  cases h with
  | complete _ =>
      have hindex := (List.getElem?_eq_some_iff.mp hdelivery).choose
      have hwritten := written_le_total (List.mem_of_getElem? hdelivery)
      rw [Nat.zero_add] at hwritten
      exact iff_of_true hindex hwritten
  | @cut before after event last happend _ hrefuse =>
      rw [happend] at hreported
      rw [happend, completed_append, Nat.zero_add, Transcript.followedBy_deliveries]
        at hdelivery
      rw [Transcript.followedBy_deliveries, Transcript.followedBy_diagnostics,
        List.length_append, List.length_append]
      by_cases hindex : index < (completed 0 before).deliveries.length
      · rw [List.getElem?_append_left hindex] at hdelivery
        have hwritten := written_le_total (List.mem_of_getElem? hdelivery)
        rw [Nat.zero_add] at hwritten
        exact iff_of_true (Nat.lt_add_right _ hindex) (Nat.le_add_right_of_le hwritten)
      · rw [List.getElem?_append_right (Nat.not_lt.mp hindex)] at hdelivery
        have hiff := refuse_delivered_iff hrefuse (reported_after hreported) hdelivery
        rw [← hiff]
        omega

/-!
# Single limits
-/

theorem leaves_at_write_limit {room : Nat} (h : Leaves ⟨some room, none, none⟩ events transcript)
    (hless : room < (completed 0 events).diagnostics.length) :
    transcript.failure? = some .sinkFull ∧
      transcript.diagnostics = (completed 0 events).diagnostics.take room := by
  cases h with
  | complete hallow => exact absurd (hallow.bytes rfl) (Nat.not_le.mpr hless)
  | @cut before after event last happend hallow hrefuse =>
      cases hrefuse with
      | @sinkFull text bound hroom hless =>
          cases hroom
          have hle := hallow.bytes rfl
          refine ⟨rfl, ?_⟩
          rw [happend, completed_append, Nat.zero_add, completed_write]
          simp only [Transcript.followedBy_diagnostics, Transcript.afterWrite,
            Transcript.empty, List.append_nil]
          rw [List.take_append, List.take_of_length_le hle, List.take_append_of_le_length]
          omega
      | flushFailed hcount => cases hcount
      | deliveryFailed hcount => cases hcount

theorem leaves_at_flush_limit {count : Nat}
    (h : Leaves ⟨none, some count, none⟩ events transcript)
    (hless : count < (completed 0 events).flushes) :
    transcript.failure? = some .flushFailed ∧ transcript.flushes = count + 1 := by
  cases h with
  | complete hallow => exact absurd (hallow.flushes rfl) (Nat.not_le.mpr hless)
  | cut happend hallow hrefuse =>
      cases hrefuse with
      | sinkFull hroom _ => cases hroom
      | flushFailed hcount =>
          cases hcount
          exact ⟨rfl, rfl⟩
      | deliveryFailed hcount => cases hcount

theorem leaves_at_delivery_limit {count : Nat}
    (h : Leaves ⟨none, none, some count⟩ events transcript)
    (hless : count < (completed 0 events).deliveries.length) :
    transcript.failure? = some .deliveryFailed ∧
      transcript.deliveries.length = count + 1 := by
  cases h with
  | complete hallow => exact absurd (hallow.deliveries rfl) (Nat.not_le.mpr hless)
  | cut happend hallow hrefuse =>
      cases hrefuse with
      | sinkFull hroom _ => cases hroom
      | flushFailed hcount => cases hcount
      | deliveryFailed hcount =>
          cases hcount
          exact ⟨rfl, List.length_append⟩

end

/-!
# Sessions
-/

def Event.outcome? : Event -> Option Outcome
  | .deliver outcome => some outcome
  | _ => none

theorem completed_outcomes (written : Nat) (events : List Event) :
    (completed written events).deliveries.map Delivery.outcome =
      events.filterMap Event.outcome? := by
  induction events generalizing written with
  | nil => rfl
  | cons event events ih =>
      cases event with
      | write text =>
          rw [completed_write]
          exact ih _
      | flush =>
          rw [completed_flush]
          exact ih _
      | deliver outcome =>
          rw [completed_deliver]
          exact congrArg (outcome :: ·) (ih written)

theorem prompt_outcomes (settings : Settings) :
    (prompt settings).filterMap Event.outcome? = [] := by
  unfold prompt
  split
  · rfl
  · rfl

theorem roundEvents_outcomes (settings : Settings) (rounds : List Round) :
    (rounds.flatMap (roundEvents settings)).filterMap Event.outcome? =
      rounds.filterMap Round.outcome? := by
  induction rounds with
  | nil => rfl
  | cons round rounds ih =>
      rw [List.flatMap_cons, List.filterMap_append, ih, roundEvents, List.filterMap_append,
        prompt_outcomes, List.append_nil]
      rcases round with ⟨_ | outcome, next⟩
      · rfl
      · rfl

theorem events_outcomes (settings : Settings) (scanner : Scanner) :
    (events settings scanner).filterMap Event.outcome? = outcomes (.start scanner) := by
  rw [events, List.filterMap_append, List.filterMap_append, prompt_outcomes,
    roundEvents_outcomes]
  exact List.append_nil _

/-- What a session with limits does, beside what it does without any. -/
structure Interrupted (limits : Limits) (settings : Settings) (scanner : Scanner) :
    Prop where
  sequence {all : List Event} :
    all = events settings scanner <->
      exists shown after, all = shown ++ after ∧ Prompts settings shown ∧
        Proceeds settings (.start scanner) after
  unlimited : run .unlimited settings scanner = completed 0 (events settings scanner)
  outcomes :
    (run .unlimited settings scanner).deliveries.map Delivery.outcome =
      outcomes (.start scanner)
  reported {delivery : Delivery} :
    delivery ∈ (run .unlimited settings scanner).deliveries ->
      exists front,
        (run .unlimited settings scanner).diagnostics.take delivery.written =
          front ++ Text.utf8 (report settings.style delivery.outcome)
  leaves : Leaves limits (events settings scanner) (run limits settings scanner)
  withstood_iff :
    (run limits settings scanner).failure? = none <->
      limits.Allow (run .unlimited settings scanner)
  diagnostics :
    (run limits settings scanner).diagnostics <+:
      (run .unlimited settings scanner).diagnostics
  deliveries :
    (run limits settings scanner).deliveries <+:
      (run .unlimited settings scanner).deliveries
  delivered_iff {index : Nat} {delivery : Delivery} :
    (run .unlimited settings scanner).deliveries[index]? = some delivery ->
      (index < (run limits settings scanner).deliveries.length <->
        delivery.written ≤ (run limits settings scanner).diagnostics.length)
  write_limit {room : Nat} :
    limits = ⟨some room, none, none⟩ ->
      room < (run .unlimited settings scanner).diagnostics.length ->
      (run limits settings scanner).failure? = some .sinkFull ∧
        (run limits settings scanner).diagnostics =
          (run .unlimited settings scanner).diagnostics.take room
  flush_limit {count : Nat} :
    limits = ⟨none, some count, none⟩ ->
      count < (run .unlimited settings scanner).flushes ->
      (run limits settings scanner).failure? = some .flushFailed ∧
        (run limits settings scanner).flushes = count + 1
  delivery_limit {count : Nat} :
    limits = ⟨none, none, some count⟩ ->
      count < (run .unlimited settings scanner).deliveries.length ->
      (run limits settings scanner).failure? = some .deliveryFailed ∧
        (run limits settings scanner).deliveries.length = count + 1

/-- A session that fails has done exactly what comes before the failure. -/
theorem run_interrupted (limits : Limits) (settings : Settings) (scanner : Scanner) :
    Interrupted limits settings scanner := by
  have hunlimited := run_unlimited settings scanner
  have hleaves := run_leaves limits settings scanner
  have hreported := reported_events settings scanner
  constructor
  · exact eq_events_iff
  · exact hunlimited
  · rw [hunlimited, completed_outcomes, events_outcomes]
  · intro delivery hmem
    rw [hunlimited] at hmem ⊢
    exact take_written hreported hmem
  · exact hleaves
  · rw [hunlimited]
    exact leaves_failure_iff hleaves
  · rw [hunlimited]
    exact (leaves_partial hleaves).left
  · rw [hunlimited]
    exact (leaves_partial hleaves).right
  · intro index delivery hdelivery
    rw [hunlimited] at hdelivery
    exact leaves_delivered_iff hleaves hreported hdelivery
  · intro room hlimits hless
    rw [hlimits] at hleaves ⊢
    rw [hunlimited] at hless ⊢
    exact leaves_at_write_limit hleaves hless
  · intro count hlimits hless
    rw [hlimits] at hleaves ⊢
    rw [hunlimited] at hless
    exact leaves_at_flush_limit hleaves hless
  · intro count hlimits hless
    rw [hlimits] at hleaves ⊢
    rw [hunlimited] at hless
    exact leaves_at_delivery_limit hleaves hless

end Session
end Kaleidoscope

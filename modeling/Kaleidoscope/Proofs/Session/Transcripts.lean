import Kaleidoscope.Proofs.Text.Utf8
import Kaleidoscope.Session.Transcript
import Mathlib.Data.List.Basic

/-!
# Transcripts of events

Events that do not fail leave a transcript that grows by appending.  Events that
are performed up to a limit leave the transcript of those before the first one
that fails, and whatever that one still does.
-/

namespace Kaleidoscope

namespace Session

/-!
# Appending transcripts
-/

namespace Transcript

def afterWrite (bytes : List UInt8) (rest : Transcript) : Transcript :=
  { rest with diagnostics := bytes ++ rest.diagnostics }

def afterFlush (rest : Transcript) : Transcript :=
  { rest with flushes := rest.flushes + 1 }

def afterDelivery (delivery : Delivery) (rest : Transcript) : Transcript :=
  { rest with deliveries := delivery :: rest.deliveries }

/-- The first transcript, and then the second one with its failure. -/
def followedBy (done rest : Transcript) : Transcript where
  diagnostics := done.diagnostics ++ rest.diagnostics
  flushes := done.flushes + rest.flushes
  deliveries := done.deliveries ++ rest.deliveries
  failure? := rest.failure?

variable {done rest : Transcript}

@[simp] theorem followedBy_diagnostics :
    (done.followedBy rest).diagnostics = done.diagnostics ++ rest.diagnostics := rfl

@[simp] theorem followedBy_flushes :
    (done.followedBy rest).flushes = done.flushes + rest.flushes := rfl

@[simp] theorem followedBy_deliveries :
    (done.followedBy rest).deliveries = done.deliveries ++ rest.deliveries := rfl

@[simp] theorem followedBy_failure :
    (done.followedBy rest).failure? = rest.failure? := rfl

theorem followedBy_assoc (done middle rest : Transcript) :
    (done.followedBy middle).followedBy rest = done.followedBy (middle.followedBy rest) := by
  simp only [followedBy, List.append_assoc, Nat.add_assoc]

theorem followedBy_empty (h : done.failure? = none) :
    done.followedBy (.empty none) = done := by
  rcases done with ⟨diagnostics, flushes, deliveries, failure?⟩
  cases h
  simp only [followedBy, empty, List.append_nil, Nat.add_zero]

theorem empty_followedBy (done : Transcript) (failure? : Option Failure) :
    (empty failure?).followedBy done = done := by
  simp only [followedBy, empty, List.nil_append, Nat.zero_add]

end Transcript

def Event.trace (written : Nat) : Event -> Transcript
  | .write text => .afterWrite (Text.utf8 text) (.empty none)
  | .flush => .afterFlush (.empty none)
  | .deliver outcome => .afterDelivery ⟨written, outcome⟩ (.empty none)

/-- What events leave behind if none of them fails. -/
def completed (written : Nat) : List Event -> Transcript
  | [] => .empty none
  | event :: rest =>
      (event.trace written).followedBy
        (completed (written + (event.trace written).diagnostics.length) rest)

theorem trace_failure (written : Nat) (event : Event) :
    (event.trace written).failure? = none := by
  cases event with
  | write text | flush | deliver outcome => rfl

theorem completed_failure (written : Nat) (events : List Event) :
    (completed written events).failure? = none := by
  induction events generalizing written with
  | nil => rfl
  | cons event events ih => exact ih _

theorem completed_append (written : Nat) (before after : List Event) :
    completed written (before ++ after) =
      (completed written before).followedBy
        (completed (written + (completed written before).diagnostics.length) after) := by
  induction before generalizing written with
  | nil => exact (Transcript.empty_followedBy _ _).symm
  | cons event before ih =>
      rw [List.cons_append, completed, completed, ih, Transcript.followedBy_assoc,
        Transcript.followedBy_diagnostics, List.length_append, Nat.add_assoc]

theorem completed_one (written : Nat) (event : Event) :
    completed written [event] = event.trace written := by
  apply Transcript.followedBy_empty
  cases event with
  | write text | flush | deliver outcome => rfl

/-!
# Limits
-/

namespace Limits

structure Allow (limits : Limits) (done : Transcript) : Prop where
  bytes {room : Nat} : limits.bytes = some room -> done.diagnostics.length ≤ room
  flushes {count : Nat} : limits.flushes = some count -> done.flushes ≤ count
  deliveries {count : Nat} : limits.deliveries = some count -> done.deliveries.length ≤ count

theorem allow_empty (limits : Limits) (failure? : Option Failure) :
    limits.Allow (.empty failure?) where
  bytes _ := Nat.zero_le _
  flushes _ := Nat.zero_le _
  deliveries _ := Nat.zero_le _

theorem unlimited_allow (done : Transcript) : unlimited.Allow done where
  bytes := nofun
  flushes := nofun
  deliveries := nofun

/--
A limit stops an event after what was done.  The event leaves the last transcript:
the bytes that there was room for, or a flush or a delivery that counts as made.
-/
inductive Refuse (limits : Limits) (done : Transcript) : Event -> Transcript -> Prop where
  | sinkFull {text : String} {room : Nat} :
      limits.bytes = some room ->
      room - done.diagnostics.length < (Text.utf8 text).length ->
      Refuse limits done (.write text)
        (.afterWrite ((Text.utf8 text).take (room - done.diagnostics.length))
          (.empty (some .sinkFull)))
  | flushFailed :
      limits.flushes = some done.flushes ->
      Refuse limits done .flush (.afterFlush (.empty (some .flushFailed)))
  | deliveryFailed {outcome : Outcome} :
      limits.deliveries = some done.deliveries.length ->
      Refuse limits done (.deliver outcome)
        (.afterDelivery ⟨done.diagnostics.length, outcome⟩ (.empty (some .deliveryFailed)))

end Limits

/-- What events with limits leave behind. -/
inductive Leaves (limits : Limits) (events : List Event) : Transcript -> Prop where
  | complete :
      limits.Allow (completed 0 events) -> Leaves limits events (completed 0 events)
  | cut {before after : List Event} {event : Event} {last : Transcript} :
      events = before ++ event :: after -> limits.Allow (completed 0 before) ->
      limits.Refuse (completed 0 before) event last ->
      Leaves limits events ((completed 0 before).followedBy last)

section

variable {limits : Limits} {done rest : Transcript} {text : String} {outcome : Outcome}

theorem afterWrite_eq (bytes : List UInt8) :
    rest.afterWrite bytes = (Transcript.afterWrite bytes (.empty none)).followedBy rest := by
  simp only [Transcript.afterWrite, Transcript.followedBy, Transcript.empty,
    List.append_nil, List.nil_append, Nat.zero_add]

theorem afterFlush_eq :
    rest.afterFlush = (Transcript.afterFlush (.empty none)).followedBy rest := by
  simp only [Transcript.afterFlush, Transcript.followedBy, Transcript.empty,
    List.nil_append, Nat.zero_add, Nat.add_comm]

theorem afterDelivery_eq (delivery : Delivery) :
    rest.afterDelivery delivery =
      (Transcript.afterDelivery delivery (.empty none)).followedBy rest := by
  simp only [Transcript.afterDelivery, Transcript.followedBy, Transcript.empty,
    List.nil_append, List.cons_append, Nat.zero_add]

theorem trace_write_length (written : Nat) (text : String) :
    ((Event.write text).trace written).diagnostics.length = (Text.utf8 text).length := by
  rw [Event.trace, Transcript.afterWrite, Transcript.empty, List.append_nil]

theorem not_allow_of_refuse {last : Transcript} {event : Event} {written : Nat}
    (h : limits.Refuse done event last) :
    ¬ limits.Allow (done.followedBy ((event.trace written).followedBy rest)) := by
  intro hallow
  cases h with
  | sinkFull hbytes hless =>
      have hle := hallow.bytes hbytes
      simp only [Transcript.followedBy_diagnostics, List.length_append,
        trace_write_length] at hle
      omega
  | flushFailed hflushes =>
      have hle := hallow.flushes hflushes
      simp only [Transcript.followedBy_flushes] at hle
      have hone : (Event.flush.trace written).flushes = 1 := rfl
      omega
  | @deliveryFailed outcome hdeliveries =>
      have hle := hallow.deliveries hdeliveries
      simp only [Transcript.followedBy_deliveries, List.length_append] at hle
      have hone : ((Event.deliver outcome).trace written).deliveries.length = 1 := rfl
      omega

/-!
# Operations
-/

/-- There is room for a text after the bytes that are written. -/
def Limits.Fits (limits : Limits) (written : Nat) (text : String) : Prop :=
  forall room, limits.bytes = some room -> (Text.utf8 text).length ≤ room - written

theorem fits_or_less (limits : Limits) (written : Nat) (text : String) :
    limits.Fits written text ∨
      exists room, limits.bytes = some room ∧ room - written < (Text.utf8 text).length := by
  by_cases hfits : limits.Fits written text
  · exact Or.inl hfits
  · right
    simpa only [Limits.Fits, not_forall, exists_prop, Nat.not_le] using hfits

theorem write_fits (h : limits.Fits done.diagnostics.length text) :
    (write limits text).run done =
      .ok () { done with diagnostics := done.diagnostics ++ Text.utf8 text } := by
  cases hbytes : limits.bytes with
  | none => simp only [write, EStateM.run_bind, EStateM.run_get, hbytes, EStateM.run_modify]
  | some room =>
      have hleft := h room hbytes
      simp only [write, EStateM.run_bind, EStateM.run_get, hbytes, EStateM.run_modify,
        if_neg (Nat.not_lt.mpr hleft), EStateM.run_pure, List.take_of_length_le hleft]

theorem write_overflows {room : Nat} (hbytes : limits.bytes = some room)
    (hless : room - done.diagnostics.length < (Text.utf8 text).length) :
    (write limits text).run done =
      .error .sinkFull { done with
        diagnostics := done.diagnostics ++
          (Text.utf8 text).take (room - done.diagnostics.length) } := by
  simp only [write, EStateM.run_bind, EStateM.run_get, hbytes, EStateM.run_modify,
    if_pos hless, EStateM.run_throw]

theorem flush_succeeds (h : limits.flushes ≠ some done.flushes) :
    (flush limits).run done = .ok () { done with flushes := done.flushes + 1 } := by
  simp only [flush, EStateM.run_bind, EStateM.run_get, EStateM.run_modify, if_neg h,
    EStateM.run_pure]

theorem flush_fails (h : limits.flushes = some done.flushes) :
    (flush limits).run done =
      .error .flushFailed { done with flushes := done.flushes + 1 } := by
  simp only [flush, EStateM.run_bind, EStateM.run_get, EStateM.run_modify, if_pos h,
    EStateM.run_throw]

theorem deliver_succeeds (h : limits.deliveries ≠ some done.deliveries.length) :
    (deliver limits outcome).run done =
      .ok () { done with
        deliveries := done.deliveries ++ [⟨done.diagnostics.length, outcome⟩] } := by
  simp only [deliver, EStateM.run_bind, EStateM.run_get, EStateM.run_modify, if_neg h,
    EStateM.run_pure]

theorem deliver_fails (h : limits.deliveries = some done.deliveries.length) :
    (deliver limits outcome).run done =
      .error .deliveryFailed { done with
        deliveries := done.deliveries ++ [⟨done.diagnostics.length, outcome⟩] } := by
  simp only [deliver, EStateM.run_bind, EStateM.run_get, EStateM.run_modify, if_pos h,
    EStateM.run_throw]

end

/-!
# One event
-/

def Event.act (limits : Limits) : Event -> Action Unit
  | .write text => Session.write limits text
  | .flush => Session.flush limits
  | .deliver outcome => Session.deliver limits outcome

/-- An event is done and keeps to the limits, or it is refused and does a part. -/
inductive Acts (limits : Limits) (done : Transcript) (event : Event) :
    EStateM.Result Failure Transcript Unit -> Prop where
  | done :
      (limits.Allow done ->
        limits.Allow (done.followedBy (event.trace done.diagnostics.length))) ->
      Acts limits done event (.ok () (done.followedBy (event.trace done.diagnostics.length)))
  | refused {failure : Failure} {rest last : Transcript} :
      limits.Refuse done event last ->
      conclude (.error failure rest) = done.followedBy last ->
      Acts limits done event (.error failure rest)

section

variable {done : Transcript} {written : Nat}

theorem followedBy_write (hclean : done.failure? = none) (text : String) :
    done.followedBy ((Event.write text).trace written) =
      { done with diagnostics := done.diagnostics ++ Text.utf8 text } := by
  simp only [Event.trace, Transcript.afterWrite, Transcript.followedBy, Transcript.empty,
    List.append_nil, Nat.add_zero, hclean]

theorem followedBy_flush (hclean : done.failure? = none) :
    done.followedBy (Event.flush.trace written) =
      { done with flushes := done.flushes + 1 } := by
  simp only [Event.trace, Transcript.afterFlush, Transcript.followedBy, Transcript.empty,
    List.append_nil, Nat.zero_add, hclean]

theorem followedBy_deliver (hclean : done.failure? = none) (outcome : Outcome) :
    done.followedBy ((Event.deliver outcome).trace written) =
      { done with deliveries := done.deliveries ++ [⟨written, outcome⟩] } := by
  simp only [Event.trace, Transcript.afterDelivery, Transcript.followedBy, Transcript.empty,
    List.append_nil, Nat.add_zero, hclean]

/-- A count that is not used up leaves room for one more. -/
theorem lt_of_ne_some {bound : Option Nat} {used count : Nat} (hcount : bound = some count)
    (hle : used ≤ count) (hused : bound ≠ some used) : used < count := by
  apply Nat.lt_of_le_of_ne hle
  intro hsame
  rw [hcount, hsame] at hused
  exact hused rfl

theorem act_acts (limits : Limits) (hclean : done.failure? = none) (event : Event) :
    Acts limits done event ((event.act limits).run done) := by
  cases event with
  | write text =>
      rcases fits_or_less limits done.diagnostics.length text with
        hfits | ⟨room, hbytes, hless⟩
      · rw [Event.act, write_fits hfits, ← followedBy_write hclean]
        apply Acts.done
        intro hallow
        rw [followedBy_write hclean]
        refine ⟨fun hroom => ?_, hallow.flushes, hallow.deliveries⟩
        rw [List.length_append]
        exact Nat.add_le_of_le_sub' (hallow.bytes hroom) (hfits _ hroom)
      · rw [Event.act, write_overflows hbytes hless]
        apply Acts.refused (Limits.Refuse.sinkFull hbytes hless)
        simp only [conclude, Transcript.afterWrite, Transcript.followedBy, Transcript.empty,
          List.append_nil, Nat.add_zero]
  | flush =>
      by_cases hused : limits.flushes = some done.flushes
      · rw [Event.act, flush_fails hused]
        apply Acts.refused (Limits.Refuse.flushFailed hused)
        simp only [conclude, Transcript.afterFlush, Transcript.followedBy, Transcript.empty,
          List.append_nil, Nat.zero_add]
      · rw [Event.act, flush_succeeds hused, ← followedBy_flush hclean]
        apply Acts.done
        intro hallow
        rw [followedBy_flush hclean]
        exact ⟨hallow.bytes, fun hcount => lt_of_ne_some hcount (hallow.flushes hcount) hused,
          hallow.deliveries⟩
  | deliver outcome =>
      by_cases hused : limits.deliveries = some done.deliveries.length
      · rw [Event.act, deliver_fails hused]
        apply Acts.refused (Limits.Refuse.deliveryFailed hused)
        simp only [conclude, Transcript.afterDelivery, Transcript.followedBy,
          Transcript.empty, List.append_nil, Nat.add_zero]
      · rw [Event.act, deliver_succeeds hused, ← followedBy_deliver hclean]
        apply Acts.done
        intro hallow
        rw [followedBy_deliver hclean]
        refine ⟨hallow.bytes, hallow.flushes, fun hcount => ?_⟩
        rw [List.length_append]
        exact lt_of_ne_some hcount (hallow.deliveries hcount) hused

end

/-!
# All events
-/

/-- Performs events in order until one fails. -/
def perform (limits : Limits) : List Event -> Action Unit
  | [] => return
  | event :: rest => do
      event.act limits
      perform limits rest

section

variable {limits : Limits} {done : Transcript}

theorem perform_append (limits : Limits) (before after : List Event) :
    perform limits (before ++ after) =
      (do perform limits before; perform limits after) := by
  induction before with
  | nil => exact (pure_bind _ _).symm
  | cons event before ih =>
      rw [List.cons_append, perform, perform, ih, bind_assoc]

theorem perform_one (limits : Limits) (event : Event) :
    perform limits [event] = event.act limits :=
  bind_pure _

theorem perform_cons_of_ok {event : Event} {next : Transcript} (events : List Event)
    (h : (event.act limits).run done = .ok () next) :
    (perform limits (event :: events)).run done = (perform limits events).run next := by
  rw [perform, EStateM.run_bind, h]

theorem perform_cons_of_error {event : Event} {failure : Failure} {next : Transcript}
    (events : List Event) (h : (event.act limits).run done = .error failure next) :
    (perform limits (event :: events)).run done = .error failure next := by
  rw [perform, EStateM.run_bind, h]

theorem leaves_after {events : List Event} (before after : List Event)
    (happend : events = before ++ after) (hbefore : limits.Allow (completed 0 before)) :
    Leaves limits events (conclude ((perform limits after).run (completed 0 before))) := by
  -- Event by event `before` grows, and stays within the limits, until one is refused.
  induction after generalizing before with
  | nil =>
      rw [List.append_nil] at happend
      rw [← happend] at hbefore ⊢
      exact Leaves.complete hbefore
  | cons event after ih =>
      have hone := completed_append 0 before [event]
      rw [Nat.zero_add, completed_one] at hone
      have hacts := act_acts limits (completed_failure 0 before) event
      generalize hresult : (event.act limits).run (completed 0 before) = result at hacts
      cases hacts with
      | done hkeeps =>
          rw [perform_cons_of_ok after hresult, ← hone]
          rw [← hone] at hkeeps
          exact ih _ (happend.trans (List.append_cons before event after)) (hkeeps hbefore)
      | refused hrefuse hlast =>
          rw [perform_cons_of_error after hresult, hlast]
          exact Leaves.cut happend hbefore hrefuse

/-- Events are performed in order up to the first one that a limit refuses. -/
theorem perform_leaves (limits : Limits) (events : List Event) :
    Leaves limits events (conclude ((perform limits events).run (.empty none))) :=
  leaves_after [] events rfl (Limits.allow_empty limits none)

theorem leaves_of_allow {events : List Event} {transcript : Transcript}
    (h : Leaves limits events transcript) (hallow : limits.Allow (completed 0 events)) :
    transcript = completed 0 events := by
  cases h with
  | complete _ => rfl
  | cut happend _ hrefuse =>
      rw [happend, completed_append, completed] at hallow
      exact absurd hallow (not_allow_of_refuse hrefuse)

theorem perform_ok {events : List Event} {rest : Transcript}
    (hclean : done.failure? = none) (h : (perform limits events).run done = .ok () rest) :
    rest = done.followedBy (completed done.diagnostics.length events) := by
  induction events generalizing done with
  | nil =>
      cases h
      exact (Transcript.followedBy_empty hclean).symm
  | cons event events ih =>
      have hacts := act_acts limits hclean event
      generalize hresult : (event.act limits).run done = result at hacts
      cases hacts with
      | done _ =>
          rw [perform_cons_of_ok events hresult] at h
          have hnext := trace_failure done.diagnostics.length event
          rw [ih ((Transcript.followedBy_failure).trans hnext) h, completed, Transcript.followedBy_assoc,
            Transcript.followedBy_diagnostics, List.length_append]
      | refused _ _ =>
          rw [perform_cons_of_error events hresult] at h
          cases h

theorem perform_extends (limits : Limits) (hclean : done.failure? = none)
    (events : List Event) :
    exists more, conclude ((perform limits events).run done) = done.followedBy more := by
  induction events generalizing done with
  | nil => exact ⟨.empty none, (Transcript.followedBy_empty hclean).symm⟩
  | cons event events ih =>
      have hacts := act_acts limits hclean event
      generalize hresult : (event.act limits).run done = result at hacts
      cases hacts with
      | done _ =>
          have hnext := trace_failure done.diagnostics.length event
          rcases ih ((Transcript.followedBy_failure).trans hnext) with ⟨more, hmore⟩
          refine ⟨(event.trace done.diagnostics.length).followedBy more, ?_⟩
          rw [perform_cons_of_ok events hresult, hmore, Transcript.followedBy_assoc]
      | @refused failure rest last _ hlast =>
          refine ⟨last, ?_⟩
          rw [perform_cons_of_error events hresult, hlast]

end

end Session
end Kaleidoscope

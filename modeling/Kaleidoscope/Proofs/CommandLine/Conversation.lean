import Kaleidoscope.CommandLine.Run
import Kaleidoscope.Proofs.Session.Settled

/-!
# Input in pieces

A run over the standard input carries out what is due after each piece.  In the
end it has done what it does if all of its input is there from the start.
-/

namespace Kaleidoscope
namespace CommandLine

section

variable (options : Options) (files : String -> FileState)

theorem settledEvents_grow (input more : List UInt8) :
    settledEvents options files input <+: settledEvents options files (input ++ more) := by
  unfold settledEvents
  cases options.file? with
  | some name => exact List.prefix_rfl
  | none =>
      apply Session.settledEvents_grow
      rw [Source.charsOf_ofBytes, Source.charsOf_ofBytes, List.map_append]
      exact List.prefix_append _ _

theorem settledEvents_prefix_course (input more : List UInt8) :
    settledEvents options files input <+: (course options files (input ++ more)).events := by
  refine (settledEvents_grow options files input more).trans ?_
  unfold settledEvents course
  cases options.file? with
  | some name => exact List.prefix_rfl
  | none => exact Session.settledEvents_prefix_events _ _

def Course.after (course : Course) (events : List Session.Event) : Course :=
  { course with events := events ++ course.events }

theorem Course.drop_after_drop {course : Course} {front : List Session.Event} {count : Nat}
    (h : front <+: course.events) (hcount : count ≤ front.length) :
    (course.drop front.length).after (front.drop count) = course.drop count := by
  rcases h with ⟨rest, hrest⟩
  rw [after, drop, drop, ← hrest, List.drop_left, List.drop_append_of_le_length hcount]

namespace Conversation

/-- What is carried out while the input comes in piece by piece. -/
def carriedOut (conversation : Conversation) : List (List UInt8) -> Course
  | [] =>
      ((conversation.catchUp options files).2.rest options files).after
        (conversation.catchUp options files).1
  | piece :: pieces =>
      (carriedOut ((conversation.catchUp options files).2.hear piece) pieces).after
        (conversation.catchUp options files).1

theorem carriedOut_eq (conversation : Conversation) (pieces : List (List UInt8))
    (h : conversation.done ≤ (settledEvents options files conversation.input).length) :
    carriedOut options files conversation pieces =
      (course options files (conversation.input ++ pieces.flatten)).drop
        conversation.done := by
  -- A piece only adds to what is settled, so the events done by then are still the first.
  induction pieces generalizing conversation with
  | nil =>
      have hsettled := settledEvents_prefix_course options files conversation.input []
      rw [List.append_nil] at hsettled
      rw [List.flatten_nil, List.append_nil, ← Course.drop_after_drop hsettled h]
      rfl
  | cons piece pieces ih =>
      have hpiece := (settledEvents_grow options files conversation.input piece).length_le
      have hrest := ih ((conversation.catchUp options files).2.hear piece) hpiece
      have hsettled := settledEvents_prefix_course options files conversation.input
        (piece ++ pieces.flatten)
      rw [carriedOut, hrest, List.flatten_cons, ← Course.drop_after_drop hsettled h,
        ← List.append_assoc]
      rfl

/-- A run that hears its input piece by piece takes the course of one that has it all. -/
theorem carriedOut_start (pieces : List (List UInt8)) :
    carriedOut options files start pieces = course options files pieces.flatten :=
  carriedOut_eq options files start pieces (Nat.zero_le _)

end Conversation

end

end CommandLine
end Kaleidoscope

import Kaleidoscope.Session.Event
import Kaleidoscope.Text.Utf8

/-!
# Sinks

## What may fail

A sink takes a number of bytes and no more, so the write that passes the limit
is cut short.  A flush or a delivery may fail as well: it counts as made, and it
is the last thing that is done.
-/

namespace Kaleidoscope
namespace Session

/-- What still succeeds before a failure; nothing stands for no limit. -/
structure Limits where
  bytes : Option Nat
  flushes : Option Nat
  deliveries : Option Nat
deriving DecidableEq

def Limits.unlimited : Limits :=
  ⟨none, none, none⟩

inductive Failure where
  | sinkFull
  | flushFailed
  | deliveryFailed
deriving DecidableEq

def Failure.message : Failure -> String
  | .sinkFull => "failed to write diagnostics: sink full"
  | .flushFailed => "failed to write diagnostics: flush failed"
  | .deliveryFailed => "failed to write diagnostics: callback failed"

/-- An outcome with the number of bytes written before it was handed over. -/
structure Delivery where
  written : Nat
  outcome : Outcome
deriving DecidableEq

structure Transcript where
  diagnostics : List UInt8
  flushes : Nat
  deliveries : List Delivery
  failure? : Option Failure
deriving DecidableEq

def Transcript.empty (failure? : Option Failure) : Transcript :=
  ⟨[], 0, [], failure?⟩

/-- A step of a session.  What it did stays in the transcript when it fails. -/
abbrev Action (α : Type) :=
  EStateM Failure Transcript α

def conclude : EStateM.Result Failure Transcript Unit -> Transcript
  | .ok () done => done
  | .error failure done => { done with failure? := some failure }

/-!
# Operations
-/

def write (limits : Limits) (text : String) : Action Unit := do
  let written := (← get).diagnostics
  let bytes := Text.utf8 text
  match limits.bytes with
  | none => modify fun done => { done with diagnostics := written ++ bytes }
  | some room =>
      let left := room - written.length
      modify fun done => { done with diagnostics := written ++ bytes.take left }
      if left < bytes.length then
        throw .sinkFull

def flush (limits : Limits) : Action Unit := do
  let count := (← get).flushes
  modify fun done => { done with flushes := count + 1 }
  if limits.flushes = some count then
    throw .flushFailed

def deliver (limits : Limits) (outcome : Outcome) : Action Unit := do
  let earlier := (← get).deliveries
  let written := (← get).diagnostics.length
  modify fun done => { done with deliveries := earlier ++ [⟨written, outcome⟩] }
  if limits.deliveries = some earlier.length then
    throw .deliveryFailed

end Session
end Kaleidoscope

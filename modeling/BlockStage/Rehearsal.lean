import BlockStage.Drive

/-!
# Rehearsing a drive

A rehearsal drives a given list of snapshots and writes down everything the
drive does: what it renders, how long it waits, how often it pulls, and the
outcomes it reports.  A script says when the drive is cancelled: while a certain
snapshot is rendered, during a certain pause, or once a certain time has been
spent waiting.  The same stop flag serves several rehearsals in a row.
-/

namespace BlockStage

/-- How a rehearsal waits. -/
inductive Pacing where
  /-- Pauses are written down and take no time. -/
  | recorded
  /-- Pauses are passed over. -/
  | unpaced
  /-- Pauses take their time. -/
  | timed
deriving DecidableEq

/-- What is rehearsed. -/
structure Script where
  snapshots : List Snapshot
  /-- Whether the list starts over at its end. -/
  cycle : Bool := false
  /-- Cancels while this snapshot, counted from one, is rendered. -/
  cancelAtRender : Option Nat := none
  /-- Cancels during this pause, counted from one. -/
  cancelAtPause : Option Nat := none
  pacing : Pacing := .recorded
  /-- Cancels once this much time has been spent waiting. -/
  stopAfter : Option Nat := none

/-- The notes of a rehearsal. -/
structure Rehearsal where
  remaining : List Snapshot
  cancelled : Bool
  /-- The rendered lines, latest first. -/
  seen : List String := []
  /-- The recorded waits, latest first. -/
  waits : List Span := []
  pulled : Nat := 0
  /-- The nanoseconds spent waiting. -/
  spent : Nat := 0
  /-- The outcomes reported, latest first. -/
  finished : List Outcome := []

namespace Rehearsal

/-- Notes before a drive, with the stop flag as it was left. -/
def start (script : Script) (cancelled : Bool) : Rehearsal where
  remaining := script.snapshots
  cancelled := cancelled

def pull (script : Script) (notes : Rehearsal) : Option Snapshot × Rehearsal :=
  let upcoming :=
    if notes.remaining.isEmpty && script.cycle then script.snapshots else notes.remaining
  match upcoming with
  | [] => (none, notes)
  | snapshot :: rest => (some snapshot, { notes with remaining := rest, pulled := notes.pulled + 1 })

def render (script : Script) (snapshot : Snapshot) (notes : Rehearsal) : Rehearsal :=
  let seen := snapshot.line :: notes.seen
  { notes with seen, cancelled := notes.cancelled || script.cancelAtRender == some seen.length }

def pause (script : Script) (span : Span) (notes : Rehearsal) : Rehearsal :=
  match script.pacing with
  | .unpaced => notes
  | .recorded =>
      let waits := span :: notes.waits
      { notes with waits, cancelled := notes.cancelled || script.cancelAtPause == some waits.length }
  | .timed =>
      if notes.cancelled then notes
      else
        let spent := notes.spent + span.nanoseconds
        let stopped :=
          match script.stopAfter with
          | some limit => decide (limit ≤ spent)
          | none => false
        { notes with spent, cancelled := stopped }

def host (script : Script) : Host Rehearsal where
  isCancelled notes := (notes.cancelled, notes)
  pull := pull script
  render := render script
  pause := pause script
  finish outcome notes := { notes with finished := outcome :: notes.finished }

/-- The notes once the drive is over.  A stop that was announced has come by
then. -/
def conclude (script : Script) (notes : Rehearsal) : Rehearsal :=
  { notes with cancelled := notes.cancelled || script.stopAfter.isSome }

def perform (turns : Nat) (settings : DriveSettings) (script : Script) (cancelled : Bool) :
    Option (Outcome × Rehearsal) :=
  (Drive.within (host script) settings turns 0 (start script cancelled)).map
    fun (outcome, notes) => (outcome, conclude script notes)

end Rehearsal

end BlockStage

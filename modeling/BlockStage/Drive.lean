import BlockStage.Snapshot
import BlockStage.Span

/-!
# Driving a sequence of snapshots

A drive pulls snapshots from a sequence, renders each and waits as long as it
asks.  It ends when the sequence ends, when it is cancelled, or when it has
rendered as many snapshots as it may.  Everything around the drive, that is the
sequence, the renderer, the pacer and whoever cancels, is one host with a state
of its own; a drive only decides which of the host's operations comes next.
-/

namespace BlockStage

/-- Why a drive ended. -/
inductive Ending where
  | completed
  | cancelled
  | limitReached
deriving DecidableEq

/-- Why a drive ended, and how many snapshots it rendered. -/
structure Outcome where
  ending : Ending
  rendered : Nat
deriving DecidableEq

/-- How a drive is paced and limited. -/
structure DriveSettings where
  timeUnit : Span := Span.millisecond
  maxSteps : Option Nat := none

/-- The surroundings of a drive.  Every operation may change the state, so any
of them may be the moment at which the drive is cancelled. -/
structure Host (σ : Type) where
  /-- Asks whether the drive is cancelled. -/
  isCancelled : σ → Bool × σ
  /-- Pulls the next snapshot. -/
  pull : σ → Option Snapshot × σ
  /-- Renders a snapshot. -/
  render : Snapshot → σ → σ
  /-- Waits. -/
  pause : Span → σ → σ
  /-- Takes note of the outcome. -/
  finish : Outcome → σ → σ

namespace Drive

variable {σ : Type}

/-- Whether a drive has rendered as many snapshots as it may. -/
def atLimit (settings : DriveSettings) (rendered : Nat) : Bool :=
  match settings.maxSteps with
  | some limit => decide (limit ≤ rendered)
  | none => false

/-- One turn of a drive: it ends, or renders one more snapshot and waits. -/
def turn (host : Host σ) (settings : DriveSettings) (rendered : Nat) (state : σ) :
    (Nat × σ) ⊕ (Outcome × σ) :=
  let (cancelled, state) := host.isCancelled state
  if cancelled then .inr (⟨.cancelled, rendered⟩, state)
  else if atLimit settings rendered then .inr (⟨.limitReached, rendered⟩, state)
  else
    match host.pull state with
    | (none, state) => .inr (⟨.completed, rendered⟩, state)
    | (some snapshot, state) =>
        let state := host.render snapshot state
        let wait := Span.pauseFor snapshot.duration settings.timeUnit
        .inl (rendered + 1, if wait.nanoseconds = 0 then state else host.pause wait state)

/-- Takes at most `turns` turns.  The result is missing when the drive would go
on after that. -/
def within (host : Host σ) (settings : DriveSettings) : Nat → Nat → σ → Option (Outcome × σ)
  | 0, _, _ => none
  | turns + 1, rendered, state =>
      match turn host settings rendered state with
      | .inl (rendered, state) => within host settings turns rendered state
      | .inr (outcome, state) => some (outcome, host.finish outcome state)

end Drive

end BlockStage

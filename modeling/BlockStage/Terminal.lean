import BlockStage.Drive
import BlockStage.Run
import BlockStage.Wire.Snapshot

/-!
# Showing a run on a terminal

A terminal writes one line per snapshot, as text or as a document, and its line
break as a piece of its own.  When the output refuses a piece, for instance
because a reader has closed the pipe, the drive is cancelled: the snapshot still
counts as rendered, and no further one is pulled.
-/

namespace BlockStage

/-- How snapshots are written. -/
inductive SnapshotFormat where
  | text
  | json
deriving DecidableEq

def SnapshotFormat.line (format : SnapshotFormat) (snapshot : Snapshot) : String :=
  match format with
  | .text => snapshot.line
  | .json => snapshot.toJson.toText

namespace Terminal

/-- The state of a run that is shown on a terminal. -/
structure Show (ω π : Type) where
  run : Run
  output : ω
  pacer : π
  cancelled : Bool

/-- The devices of a terminal.  Writing tells whether the whole text was taken;
waiting tells whether somebody asked to stop meanwhile. -/
structure Devices (ω π : Type) where
  write : String → ω → Bool × ω
  wait : Span → π → Bool × π

/-- Writes a line: its text, and then its line break if the text was taken. -/
def Devices.writeLine {ω π : Type} (devices : Devices ω π) (line : String) (output : ω) :
    Bool × ω :=
  match devices.write line output with
  | (true, output) => devices.write "\n" output
  | (false, output) => (false, output)

def host {ω π : Type} (program : Program) (format : SnapshotFormat) (devices : Devices ω π) :
    Host (Show ω π) where
  isCancelled state := (state.cancelled, state)
  pull state :=
    let (snapshot, run) := state.run.step program
    (snapshot, { state with run })
  render snapshot state :=
    let (taken, output) := devices.writeLine (format.line snapshot) state.output
    { state with output, cancelled := state.cancelled || !taken }
  pause span state :=
    let (stopped, pacer) := devices.wait span state.pacer
    { state with pacer, cancelled := state.cancelled || stopped }
  finish _ state := state

/-- An output that is closed after a number of line breaks, or never. -/
structure Paper where
  written : String := ""
  linesLeft : Option Nat := none

def lineBreaks (content : String) : Nat := content.toList.count '\n'

/-- Writes a piece of text.  A piece is taken in full as long as a line break is
left, also when it brings more than one. -/
def Paper.write (content : String) (paper : Paper) : Bool × Paper :=
  match paper.linesLeft with
  | some 0 => (false, paper)
  | lines =>
      (true,
        { written := paper.written ++ content
          linesLeft := lines.map (· - lineBreaks content) })

end Terminal

end BlockStage

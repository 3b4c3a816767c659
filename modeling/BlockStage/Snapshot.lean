import BlockStage.Bindings
import BlockStage.Node.Statement
import BlockStage.Number.Style

/-!
# Snapshots of a run

A snapshot shows a statement that is about to take effect and the variables at
that moment.  A sleeping statement shows a second snapshot with the time it
asks for.  As a line of text a snapshot names the statement, lists the
variables in order of their names and ends with the sleep.
-/

namespace BlockStage

/-- One visible moment of a run. -/
structure Snapshot where
  statement : StatementId
  values : List (String × Float)
  special : Special
  duration : Option Float

namespace Snapshot

def capture (statement : StatementId) (bindings : Bindings) (duration : Option Float) :
    Snapshot where
  statement := statement
  values := bindings.pairs
  special := bindings.special
  duration := duration

def valueOf? (snapshot : Snapshot) (name : String) : Option Float :=
  snapshot.values.lookup name

/-- The snapshot as a line of text, without a line break of its own. -/
def line (snapshot : Snapshot) : String :=
  let shown := snapshot.values.map fun pair => pair.1 ++ "=" ++ shownNumber pair.2
  let start := "[" ++ snapshot.statement ++ "] " ++ String.intercalate " " shown
  match snapshot.duration with
  | some duration => start ++ " | sleep " ++ shownNumber duration
  | none => start

end Snapshot

end BlockStage

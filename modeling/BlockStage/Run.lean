import BlockStage.Evaluation
import BlockStage.Snapshot

/-!
# Runs

A run walks the entry list of a program and shows one snapshot per step.  The
snapshot of a statement is shown before the statement takes effect; the effect
follows at the beginning of the next step.  A stack of frames remembers where
the walk stands in each list and loop it is inside of.  A body without
statements still shows its owner once, so every round of a loop is visible and
every step ends.
-/

namespace BlockStage

/-- How far a run has come. -/
inductive Phase where
  | ready
  | running
  | completed
deriving DecidableEq

/-- A place where the walk will go on. -/
inductive Frame where
  /-- Inside a list, in front of its statement number `next`.  The owner is the
  statement whose body the list is; the entry list has none. -/
  | sequence (statements : List StatementId) (next : Nat) (owner : Option StatementId)
  /-- Between two rounds of a loop. -/
  | loop (statement : StatementId) (condition : ExpressionId) (body : ListId)
deriving DecidableEq

/-- The state of a run. -/
structure Run where
  phase : Phase
  bindings : Bindings
  /-- The frames, innermost first. -/
  stack : List Frame
  /-- The statement that was shown but has not taken effect. -/
  pending : Option StatementId
  /-- How many snapshots were shown. -/
  emitted : Nat
  /-- The snapshots shown so far, if the run keeps them. -/
  trace : Option (List Snapshot)

namespace Run

def start (traced : Bool) : Run where
  phase := .ready
  bindings := .seeded
  stack := []
  pending := none
  emitted := 0
  trace := if traced then some [] else none

def depth (run : Run) : Nat := run.stack.length

/-- What a statement does when it takes effect. -/
structure Effect where
  bindings : Bindings
  stack : List Frame
  sleep : Option Float

/-- The effect of a statement.  An assignment writes, a branch enters one of its
bodies, a loop comes to stand in front of its first round, and a sleep asks for
time; a hole does nothing. -/
def effect (program : Program) (bindings : Bindings) (stack : List Frame)
    (statement : StatementId) : Effect :=
  match program.statement? statement with
  | none => ⟨bindings, stack, none⟩
  | some (.assign name value) =>
      ⟨bindings.set name (program.evaluate bindings value), stack, none⟩
  | some (.branch condition thenBody elseBody) =>
      let body := if isTruthy (program.evaluate bindings condition) then thenBody else elseBody
      ⟨bindings, .sequence (program.listOrEmpty body) 0 (some statement) :: stack, none⟩
  | some (.loop condition body) => ⟨bindings, .loop statement condition body :: stack, none⟩
  | some (.sleep duration) => ⟨bindings, stack, some (program.evaluate bindings duration)⟩

/-- The next statement to show, whether it is still to take effect, and the
frames behind it. -/
structure Stop where
  statement : StatementId
  pending : Bool
  stack : List Frame

/-- Where a round of a loop first stops: at the first statement of the body,
or at the loop itself when the body is empty. -/
def enterRound (statement : StatementId) (body : List StatementId) (stack : List Frame) : Stop :=
  match body with
  | [] => ⟨statement, false, stack⟩
  | first :: rest => ⟨first, true, .sequence (first :: rest) 1 (some statement) :: stack⟩

/-- The next place at which the walk stops, if it does not end before. -/
def advance (program : Program) (bindings : Bindings) : List Frame → Option Stop
  | [] => none
  | .sequence statements next owner :: rest =>
      match statements[next]? with
      | some statement => some ⟨statement, true, .sequence statements (next + 1) owner :: rest⟩
      | none =>
          match statements, owner with
          | [], some owner => some ⟨owner, false, rest⟩
          | _, _ => advance program bindings rest
  | .loop statement condition body :: rest =>
      if isTruthy (program.evaluate bindings condition) then
        some (enterRound statement (program.listOrEmpty body)
          (.loop statement condition body :: rest))
      else advance program bindings rest

/-- Shows a snapshot and waits with the given statement pending. -/
def emit (run : Run) (bindings : Bindings) (stack : List Frame)
    (pending : Option StatementId) (snapshot : Snapshot) : Option Snapshot × Run :=
  (some snapshot,
    { phase := .running
      bindings
      stack
      pending
      emitted := run.emitted + 1
      trace := run.trace.map (· ++ [snapshot]) })

/-- Goes on to the next place at which the walk stops, or completes the run. -/
def proceed (run : Run) (program : Program) (bindings : Bindings) (stack : List Frame) :
    Option Snapshot × Run :=
  match advance program bindings stack with
  | some stop =>
      run.emit bindings stop.stack (if stop.pending then some stop.statement else none)
        (.capture stop.statement bindings none)
  | none => (none, { run with phase := .completed, bindings, stack := [], pending := none })

/-- Takes one step: the pending statement takes effect, and the walk goes on to
the next snapshot.  A completed run stays as it is. -/
def step (run : Run) (program : Program) : Option Snapshot × Run :=
  match run.phase with
  | .completed => (none, run)
  | .ready => run.proceed program run.bindings [.sequence program.entry 0 none]
  | .running =>
      match run.pending with
      | none => run.proceed program run.bindings run.stack
      | some statement =>
          let effect := effect program run.bindings run.stack statement
          match effect.sleep with
          | some duration =>
              run.emit effect.bindings effect.stack none
                (.capture statement effect.bindings (some duration))
          | none => run.proceed program effect.bindings effect.stack

end Run

end BlockStage

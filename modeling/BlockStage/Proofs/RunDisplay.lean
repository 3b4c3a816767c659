import BlockStage.Proofs.RunLoop

/-!
# A run never looks ahead

What a run shows is where it stands: behind each step the variables are those
of the snapshot, and the next step changes them only by the assignment that the
snapshot shows.  Between two snapshots a step may leave many lists and loops,
test conditions and enter a body, and it may show a statement that has no effect
left, namely a sleep for the second time or the owner of an empty body.  The
invariant behind it is that all statements on the stack, to which such a body
may belong, write nothing.
-/

namespace BlockStage

namespace Program

def IsAssignment (program : Program) (statement : StatementId) : Prop :=
  ∃ name value, program.statement? statement = some (.assign name value)

/-- The variables once a statement has taken effect.  Only an assignment writes. -/
def written (program : Program) (bindings : Bindings) (statement : StatementId) : Bindings :=
  match program.statement? statement with
  | some (.assign name value) => bindings.set name (program.evaluate bindings value)
  | _ => bindings

theorem written_of_assign {program : Program} {statement : StatementId} {name : String}
    {value : ExpressionId} (node : program.statement? statement = some (.assign name value))
    (bindings : Bindings) :
    program.written bindings statement = bindings.set name (program.evaluate bindings value) := by
  simp only [written, node]

theorem written_of_not_assign {program : Program} {statement : StatementId}
    (other : ¬ program.IsAssignment statement) (bindings : Bindings) :
    program.written bindings statement = bindings := by
  unfold written
  split
  · rename_i name value node
    exact absurd ⟨name, value, node⟩ other
  · rfl

end Program

namespace Run

/-- No statement to which a frame of the stack belongs is an assignment. -/
def OwnersWriteNothing (program : Program) (stack : List Frame) : Prop :=
  ∀ frame ∈ stack,
    match frame with
    | .sequence _ _ owner => ∀ statement, owner = some statement → ¬ program.IsAssignment statement
    | .loop statement _ _ => ¬ program.IsAssignment statement

namespace OwnersWriteNothing

variable {program : Program} {stack : List Frame}

theorem sequence {statements : List StatementId} {next : Nat} {owner : Option StatementId}
    (ownerWritesNothing : ∀ statement, owner = some statement → ¬ program.IsAssignment statement)
    (below : OwnersWriteNothing program stack) :
    OwnersWriteNothing program (.sequence statements next owner :: stack) :=
  List.forall_mem_cons.mpr ⟨ownerWritesNothing, below⟩

theorem loop {statement : StatementId} (condition : ExpressionId) (body : ListId)
    (writesNothing : ¬ program.IsAssignment statement)
    (below : OwnersWriteNothing program stack) :
    OwnersWriteNothing program (.loop statement condition body :: stack) :=
  List.forall_mem_cons.mpr ⟨writesNothing, below⟩

/-- A statement that takes effect puts only itself on the stack, and no
assignment does so. -/
theorem effect (owners : OwnersWriteNothing program stack) (bindings : Bindings)
    (statement : StatementId) :
    OwnersWriteNothing program (effect program bindings stack statement).stack := by
  cases node : program.statement? statement with
  | none => simpa only [Run.effect, node] using owners
  | some found =>
      cases found with
      | assign name value => simpa only [Run.effect, node] using owners
      | branch condition thenBody elseBody =>
          have writesNothing : ¬ program.IsAssignment statement := by
            simp [Program.IsAssignment, node]
          simp only [Run.effect, node]
          exact owners.sequence fun _ same => Option.some.inj same ▸ writesNothing
      | loop condition body =>
          have writesNothing : ¬ program.IsAssignment statement := by
            simp [Program.IsAssignment, node]
          simp only [Run.effect, node]
          exact owners.loop condition body writesNothing
      | sleep duration => simpa only [Run.effect, node] using owners

end OwnersWriteNothing

/-- Where the walk stops at a statement that has no effect left, that statement
is no assignment: it is the owner of an empty body. -/
theorem advance_owners {program : Program} {bindings : Bindings} {stack : List Frame} {stop : Stop}
    (owners : OwnersWriteNothing program stack)
    (stopped : advance program bindings stack = some stop) :
    OwnersWriteNothing program stop.stack ∧
      (stop.pending = false → ¬ program.IsAssignment stop.statement) := by
  induction stack with
  | nil => cases stopped
  | cons frame rest ih =>
      obtain ⟨own, below⟩ := List.forall_mem_cons.mp owners
      cases frame with
      | sequence statements next owner =>
          simp only [advance] at stopped
          split at stopped
          · cases stopped
            exact ⟨.sequence own below, by simp⟩
          · split at stopped
            · cases stopped
              exact ⟨below, fun _ => own _ rfl⟩
            · exact ih below stopped
      | loop statement condition body =>
          simp only [advance] at stopped
          split at stopped
          · cases stopped
            have ownBody := fun other (same : some statement = some other) =>
              Option.some.inj same ▸ own
            cases program.listOrEmpty body with
            | nil => exact ⟨.loop condition body own below, fun _ => own⟩
            | cons first others =>
                exact ⟨.sequence ownBody (.loop condition body own below), by simp [enterRound]⟩
          · exact ih below stopped

/-- A run stands at a snapshot: its variables are the captured ones, and the
statement is still to take effect unless it writes nothing anyway. -/
structure StandsAt (program : Program) (run : Run) (snapshot : Snapshot) : Prop where
  running : run.phase = .running
  captured : snapshot = .capture snapshot.statement run.bindings snapshot.duration
  pending : run.pending = some snapshot.statement ∨
    run.pending = none ∧ ¬ program.IsAssignment snapshot.statement

section Steps

variable {program : Program} {run : Run}

theorem bindings_proceed (run : Run) (program : Program) (bindings : Bindings)
    (stack : List Frame) : (run.proceed program bindings stack).2.bindings = bindings := by
  unfold proceed
  split <;> rfl

theorem proceed_standsAt (run : Run) {bindings : Bindings} {stack : List Frame}
    (owners : OwnersWriteNothing program stack) :
    OwnersWriteNothing program (run.proceed program bindings stack).2.stack ∧
      ∀ snapshot, (run.proceed program bindings stack).1 = some snapshot →
        StandsAt program (run.proceed program bindings stack).2 snapshot := by
  cases stopped : advance program bindings stack with
  | none =>
      simp only [proceed, stopped]
      exact ⟨by simp [OwnersWriteNothing], by simp⟩
  | some stop =>
      obtain ⟨stopOwners, settled⟩ := advance_owners owners stopped
      simp only [proceed, stopped]
      refine ⟨stopOwners, ?_⟩
      rintro snapshot shown
      cases shown
      refine ⟨rfl, rfl, ?_⟩
      cases waits : stop.pending with
      | true => exact Or.inl rfl
      | false => exact Or.inr ⟨rfl, settled waits⟩

theorem not_isAssignment_of_sleep {bindings : Bindings} {stack : List Frame}
    {statement : StatementId} {duration : Float}
    (sleeps : (effect program bindings stack statement).sleep = some duration) :
    ¬ program.IsAssignment statement := by
  rintro ⟨name, value, node⟩
  simp only [effect, node] at sleeps
  cases sleeps

/-- A step keeps assignments off the stack, and the run stands at the snapshot
that the step shows. -/
theorem step_standsAt (owners : OwnersWriteNothing program run.stack) :
    OwnersWriteNothing program (run.step program).2.stack ∧
      ∀ snapshot, (run.step program).1 = some snapshot →
        StandsAt program (run.step program).2 snapshot := by
  unfold step
  split
  · exact ⟨owners, by simp⟩
  · have entry : OwnersWriteNothing program [.sequence program.entry 0 none] :=
      .sequence (by simp) (by simp [OwnersWriteNothing])
    exact proceed_standsAt run entry
  · split
    · exact proceed_standsAt run owners
    · rename_i statement waits
      have effectOwners := owners.effect run.bindings statement
      dsimp only
      split
      · rename_i duration sleeps
        refine ⟨effectOwners, ?_⟩
        rintro snapshot shown
        cases shown
        exact ⟨rfl, rfl, Or.inr ⟨rfl, not_isAssignment_of_sleep sleeps⟩⟩
      · exact proceed_standsAt run effectOwners

theorem bindings_effect (program : Program) (bindings : Bindings) (stack : List Frame)
    (statement : StatementId) :
    (effect program bindings stack statement).bindings = program.written bindings statement := by
  cases node : program.statement? statement with
  | none => simp only [effect, Program.written, node]
  | some found => cases found <;> simp only [effect, Program.written, node]

/-- The step behind a snapshot writes what the shown statement writes, and
nothing else, whether it shows another snapshot or ends the run. -/
theorem bindings_step_of_standsAt {snapshot : Snapshot} (stands : StandsAt program run snapshot) :
    (run.step program).2.bindings = program.written run.bindings snapshot.statement := by
  obtain ⟨running, -, waits | ⟨settled, writesNothing⟩⟩ := stands
  · simp only [step, running, waits]
    split
    · exact bindings_effect program run.bindings run.stack snapshot.statement
    · rw [bindings_proceed, bindings_effect]
  · rw [step_of_pending_none run program running settled, bindings_proceed,
      Program.written_of_not_assign writesNothing]

/-- After any number of steps no assignment is on the stack. -/
theorem owners_after (program : Program) (traced : Bool) (count : Nat) :
    OwnersWriteNothing program ((start traced).after program count).stack := by
  induction count with
  | zero => simp [after, start, OwnersWriteNothing]
  | succ count ih => exact (step_standsAt ih).1

end Steps

/-- A run never looks ahead.  Behind the step that shows a snapshot its variables
are exactly the captured ones.  The next step sets the variable of an assignment
that the snapshot shows, to the value it has under these variables; in front of
any other statement, and of a hole, it changes nothing. -/
theorem bindings_change_only_as_shown (program : Program) (traced : Bool) (count : Nat)
    (snapshot : Snapshot) (shown : (start traced).result program count = some snapshot) :
    let run := (start traced).after program (count + 1)
    let next := (run.step program).2
    snapshot.values = run.bindings.pairs ∧ snapshot.special = run.bindings.special ∧
      (∀ name value, program.statement? snapshot.statement = some (.assign name value) →
        next.bindings = run.bindings.set name (program.evaluate run.bindings value)) ∧
      ((∀ name value, program.statement? snapshot.statement ≠ some (.assign name value)) →
        next.bindings = run.bindings) := by
  intro run next
  have stands : StandsAt program run snapshot :=
    (step_standsAt (owners_after program traced count)).2 snapshot shown
  have changed := bindings_step_of_standsAt stands
  refine ⟨?_, ?_, ?_, ?_⟩
  · rw [stands.captured]
    rfl
  · rw [stands.captured]
    rfl
  · intro name value node
    exact changed.trans (Program.written_of_assign node run.bindings)
  · intro other
    refine changed.trans (Program.written_of_not_assign ?_ run.bindings)
    rintro ⟨name, value, node⟩
    exact other name value node

/-- Assigns to `x`, by a statement that stands behind an empty branch. -/
def branchThenAssign : Program where
  statements := Arena.ofEntries [("0", .branch "9" "1" "2"), ("1", .assign "x" "7")]
  expressions := Arena.ofEntries [("7", .constant 5)]
  lists := Arena.ofEntries [(entryList, ["0", "1"])]
  statementCount := 2
  expressionCount := 10
  listCount := 3

/-- The branch is shown twice, since its body is empty, and only the step behind
the third snapshot writes. -/
theorem bindings_of_branchThenAssign :
    ∃ snapshot, (start false).result branchThenAssign 2 = some snapshot ∧
      snapshot.statement = "1" ∧ snapshot.values = Bindings.seeded.pairs ∧
      ((start false).after branchThenAssign 4).bindings =
        Bindings.seeded.set "x" (branchThenAssign.evaluate .seeded "7") := by
  have shown : (start false).result branchThenAssign 2 =
      some (.capture "1" .seeded none) := by
    with_unfolding_all rfl
  have seeded : ((start false).after branchThenAssign 3).bindings = .seeded := by
    with_unfolding_all rfl
  obtain ⟨values, -, assigned, -⟩ :=
    bindings_change_only_as_shown branchThenAssign false 2 _ shown
  rw [seeded] at assigned
  exact ⟨_, shown, rfl, values.trans (by rw [seeded]), assigned "x" "7" rfl⟩

end Run

end BlockStage

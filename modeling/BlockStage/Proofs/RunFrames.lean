import BlockStage.Proofs.RunWalk

/-!
# The frames of a run

The stack of a run is read from the bottom: the entry list, the branch or loop
that was last taken out of it, the body that was entered for that statement, the
statement last taken out of the body, and so on up to the place of the walk.  A
step may leave many frames and then enter a body, and the pending statement takes
effect before any frame is looked at.  This file states which stacks there can be
and proves that every step keeps to them, so that a run is over exactly when its
stack is empty.  The counter and the trace of a run are told from what its steps
returned.
-/

namespace BlockStage

namespace Program

def IsSleep (program : Program) (statement : StatementId) : Prop :=
  ∃ value, program.statement? statement = some (.sleep value)

end Program

/-- The statement that the walk took last out of the list of a frame. -/
def Frame.lastTaken? : Frame → Option StatementId
  | .sequence statements (next + 1) _ => statements[next]?
  | .sequence _ 0 _ => none
  | .loop _ _ _ => none

namespace Run

/-- The stacks of a run.  At the bottom is the entry list.  On a list stands the
branch that was last taken out of it, with one of its bodies, or the loop that
was; on a loop stands its body. -/
inductive Stacked (program : Program) : List Frame → Prop where
  | entry {next : Nat} :
      next ≤ program.entry.length → Stacked program [.sequence program.entry next none]
  | body {statement : StatementId} {condition : ExpressionId} {thenBody elseBody body : ListId}
      {next : Nat} {below : Frame} {rest : List Frame} :
      program.statement? statement = some (.branch condition thenBody elseBody) →
      body = thenBody ∨ body = elseBody →
      next ≤ (program.listOrEmpty body).length →
      below.lastTaken? = some statement →
      Stacked program (below :: rest) →
      Stacked program
        (.sequence (program.listOrEmpty body) next (some statement) :: below :: rest)
  | round {statement : StatementId} {condition : ExpressionId} {body : ListId} {next : Nat}
      {rest : List Frame} :
      next ≤ (program.listOrEmpty body).length →
      Stacked program (.loop statement condition body :: rest) →
      Stacked program (.sequence (program.listOrEmpty body) next (some statement) ::
        .loop statement condition body :: rest)
  | loop {statement : StatementId} {condition : ExpressionId} {body : ListId} {below : Frame}
      {rest : List Frame} :
      program.statement? statement = some (.loop condition body) →
      below.lastTaken? = some statement →
      Stacked program (below :: rest) →
      Stacked program (.loop statement condition body :: below :: rest)

/-- The statement that was last taken out of the innermost frame. -/
def lastTaken? (stack : List Frame) : Option StatementId :=
  stack.head?.bind Frame.lastTaken?

theorem exists_of_lastTaken? {stack : List Frame} {statement : StatementId}
    (taken : lastTaken? stack = some statement) :
    ∃ frame rest, stack = frame :: rest ∧ frame.lastTaken? = some statement := by
  cases stack with
  | nil => cases taken
  | cons frame rest => exact ⟨frame, rest, rfl, taken⟩

namespace Stacked

variable {program : Program} {stack rest : List Frame} {frame : Frame}

theorem ne_nil (stacked : Stacked program stack) : stack ≠ [] := by
  cases stacked <;> simp

/-- Leaving a frame keeps the shape of the stack, unless it was the last one. -/
theorem pop (stacked : Stacked program (frame :: rest)) (more : rest ≠ []) :
    Stacked program rest := by
  cases stacked with
  | entry => exact absurd rfl more
  | body _ _ _ _ below => exact below
  | round _ below => exact below
  | loop _ _ below => exact below

/-- Only the entry list has no owner, and only it stands at the bottom. -/
theorem rest_eq_nil_iff {statements : List StatementId} {next : Nat}
    {owner : Option StatementId}
    (stacked : Stacked program (.sequence statements next owner :: rest)) :
    rest = [] ↔ owner = none := by
  cases stacked <;> simp

/-- Taking a statement out of the innermost list keeps the shape of the stack. -/
theorem take {statements : List StatementId} {next : Nat} {owner : Option StatementId}
    {statement : StatementId} (stacked : Stacked program (.sequence statements next owner :: rest))
    (upcoming : statements[next]? = some statement) :
    Stacked program (.sequence statements (next + 1) owner :: rest) := by
  have inside : next + 1 ≤ statements.length := (List.getElem?_eq_some_iff.mp upcoming).1
  cases stacked with
  | entry => exact .entry inside
  | body node chosen _ taken below => exact .body node chosen inside taken below
  | round _ below => exact .round inside below

theorem next_le {statements : List StatementId} {next : Nat} {owner : Option StatementId}
    (stacked : Stacked program (.sequence statements next owner :: rest)) :
    next ≤ statements.length := by
  cases stacked <;> assumption

/-- Every list of the stack, not only the innermost, is walked up to its end at
most. -/
theorem next_le_of_mem (stacked : Stacked program stack) {statements : List StatementId}
    {next : Nat} {owner : Option StatementId}
    (member : .sequence statements next owner ∈ stack) : next ≤ statements.length := by
  induction stack with
  | nil => cases member
  | cons frame rest ih =>
      rcases List.mem_cons.mp member with rfl | deeper
      · exact stacked.next_le
      · exact ih (stacked.pop (List.ne_nil_of_mem deeper)) deeper

/-- A statement that takes effect right after it was taken puts on the stack what
may stand there. -/
theorem effect {statement : StatementId} (stacked : Stacked program stack)
    (taken : lastTaken? stack = some statement) (bindings : Bindings) :
    Stacked program (effect program bindings stack statement).stack := by
  obtain ⟨below, rest, rfl, taken⟩ := exists_of_lastTaken? taken
  cases node : program.statement? statement with
  | none => simpa only [Run.effect, node] using stacked
  | some found =>
      cases found with
      | assign name value => simpa only [Run.effect, node] using stacked
      | branch condition thenBody elseBody =>
          simp only [Run.effect, node]
          refine .body node ?_ (Nat.zero_le _) taken stacked
          split
          · exact Or.inl rfl
          · exact Or.inr rfl
      | loop condition body =>
          simp only [Run.effect, node]
          exact .loop node taken stacked
      | sleep duration => simpa only [Run.effect, node] using stacked

end Stacked

section Steps

variable {program : Program}

/-- Where the walk stops next, the stack has its shape again, and a statement that
is still to take effect was taken out of the innermost list. -/
theorem advance_stacked {bindings : Bindings} {stack : List Frame} {stop : Stop}
    (stacked : Stacked program stack) (stopped : advance program bindings stack = some stop) :
    Stacked program stop.stack ∧
      (stop.pending = true → lastTaken? stop.stack = some stop.statement) := by
  -- The walk goes on below a frame only if there is one: the entry list ends it.
  induction stack with
  | nil => cases stopped
  | cons frame rest ih =>
      have goOn (left : advance program bindings rest = some stop) :
          Stacked program stop.stack ∧
            (stop.pending = true → lastTaken? stop.stack = some stop.statement) := by
        refine ih (stacked.pop ?_) left
        rintro rfl
        cases left
      cases frame with
      | sequence statements next owner =>
          simp only [advance] at stopped
          split at stopped
          · rename_i statement upcoming
            cases stopped
            exact ⟨stacked.take upcoming, fun _ => upcoming⟩
          · split at stopped
            · cases stopped
              refine ⟨stacked.pop ?_, by simp⟩
              rw [Ne, stacked.rest_eq_nil_iff]
              simp
            · exact goOn stopped
      | loop statement condition body =>
          simp only [advance] at stopped
          split at stopped
          · cases stopped
            cases entered : program.listOrEmpty body with
            | nil => exact ⟨stacked, by simp [enterRound]⟩
            | cons first others =>
                have inside : 1 ≤ (program.listOrEmpty body).length := by simp [entered]
                have round := Stacked.round inside stacked
                rw [entered] at round
                exact ⟨round, fun _ => rfl⟩
          · exact goOn stopped

/-- What holds of a run in each of its phases. -/
def WellShaped (program : Program) (run : Run) : Prop :=
  match run.phase with
  | .ready => run.stack = [] ∧ run.pending = none
  | .running => Stacked program run.stack ∧
      ∀ statement, run.pending = some statement → lastTaken? run.stack = some statement
  | .completed => run.stack = [] ∧ run.pending = none

theorem proceed_wellShaped (run : Run) (bindings : Bindings) {stack : List Frame}
    (stacked : Stacked program stack) :
    WellShaped program (run.proceed program bindings stack).2 := by
  cases stopped : advance program bindings stack with
  | none =>
      simp only [proceed, stopped]
      exact ⟨rfl, rfl⟩
  | some stop =>
      obtain ⟨stopStacked, taken⟩ := advance_stacked stacked stopped
      simp only [proceed, stopped]
      refine ⟨stopStacked, ?_⟩
      intro statement waits
      cases pending : stop.pending with
      | true =>
          simp only [emit, pending, if_true, Option.some.injEq] at waits
          exact waits ▸ taken pending
      | false => simp [emit, pending] at waits

theorem step_wellShaped {run : Run} (shaped : WellShaped program run) :
    WellShaped program (run.step program).2 := by
  unfold step
  split
  · exact shaped
  · exact proceed_wellShaped run run.bindings (.entry (Nat.zero_le _))
  · rename_i running
    simp only [WellShaped, running] at shaped
    obtain ⟨stacked, taken⟩ := shaped
    split
    · exact proceed_wellShaped run run.bindings stacked
    · rename_i statement waits
      have effectStacked := stacked.effect (taken statement waits) run.bindings
      dsimp only
      split
      · exact ⟨effectStacked, by simp [emit]⟩
      · exact proceed_wellShaped run _ effectStacked

theorem wellShaped_after (program : Program) (traced : Bool) (count : Nat) :
    WellShaped program ((start traced).after program count) := by
  induction count with
  | zero => exact ⟨rfl, rfl⟩
  | succ count ih => exact step_wellShaped ih

theorem phase_after_eq_ready_iff (program : Program) (traced : Bool) (count : Nat) :
    ((start traced).after program count).phase = .ready ↔ count = 0 := by
  cases count with
  | zero => exact ⟨fun _ => rfl, fun _ => rfl⟩
  | succ count =>
      constructor
      · exact fun ready => absurd ready (phase_step_ne_ready _ program)
      · exact fun none => by cases none

theorem step_of_completed {run : Run} (completed : run.phase = .completed) :
    run.step program = (none, run) := by
  simp only [step, completed]

theorem after_of_completed {run : Run} (completed : run.phase = .completed) (more : Nat) :
    run.after program more = run := by
  induction more with
  | zero => rfl
  | succ more ih => rw [after, ih, step_of_completed completed]

theorem sleep_effect_eq_none {statement : StatementId} (other : ¬ program.IsSleep statement)
    (bindings : Bindings) (stack : List Frame) :
    (effect program bindings stack statement).sleep = none := by
  unfold effect
  split
  · rfl
  · rfl
  · rfl
  · rfl
  · rename_i value node
    exact absurd ⟨value, node⟩ other

/-- What a step can do: nothing any more, go on to the next stop, or show for how long the
pending statement sleeps. -/
theorem step_cases {run : Run} (shaped : WellShaped program run) :
    (run.phase = .completed ∧ run.pending = none ∧ run.step program = (none, run)) ∨
    (∃ bindings stack, Stacked program stack ∧
      run.step program = run.proceed program bindings stack) ∨
    ∃ statement value, run.pending = some statement ∧
      program.statement? statement = some (.sleep value) ∧
      run.step program = run.emit run.bindings run.stack none
        (.capture statement run.bindings (some (program.evaluate run.bindings value))) := by
  cases phase : run.phase with
  | completed =>
      simp only [WellShaped, phase] at shaped
      exact Or.inl ⟨rfl, shaped.2, step_of_completed phase⟩
  | ready =>
      refine Or.inr (Or.inl ⟨run.bindings, _, .entry (Nat.zero_le _), ?_⟩)
      simp only [step, phase]
  | running =>
      simp only [WellShaped, phase] at shaped
      obtain ⟨stacked, taken⟩ := shaped
      cases pending : run.pending with
      | none =>
          exact Or.inr (Or.inl ⟨_, _, stacked, step_of_pending_none run program phase pending⟩)
      | some statement =>
          have effectStacked := stacked.effect (taken statement pending) run.bindings
          by_cases sleeps : program.IsSleep statement
          · obtain ⟨value, node⟩ := sleeps
            refine Or.inr (Or.inr ⟨statement, value, rfl, node, ?_⟩)
            simp only [step, phase, pending, effect, node]
          · have asksNothing := sleep_effect_eq_none sleeps run.bindings run.stack
            refine Or.inr (Or.inl ⟨(effect program run.bindings run.stack statement).bindings, _,
              effectStacked, ?_⟩)
            simp only [step, phase, pending, asksNothing]

/-! ### The counter and the trace -/

/-- The snapshots that the first steps of a run return. -/
def shown (run : Run) (program : Program) (count : Nat) : List Snapshot :=
  (List.range count).filterMap (run.result program)

theorem shown_succ (run : Run) (program : Program) (count : Nat) :
    run.shown program (count + 1) =
      run.shown program count ++ (run.result program count).toList := by
  rw [shown, List.range_succ, List.filterMap_append]
  cases returned : run.result program count <;> simp [shown, returned]

/-- A run has taken note of what a step returned. -/
def Records (before after : Run) (returned : Option Snapshot) : Prop :=
  after.emitted = before.emitted + returned.toList.length ∧
    after.trace = before.trace.map (· ++ returned.toList)

theorem records_none (run : Run) (phase : Phase) (place : Place) :
    Records run { run.moveTo place with phase := phase } none := by
  refine ⟨rfl, ?_⟩
  cases kept : run.trace <;> simp [moveTo, kept]

theorem records_proceed (run : Run) (bindings : Bindings) (stack : List Frame) :
    Records run (run.proceed program bindings stack).2 (run.proceed program bindings stack).1 := by
  unfold proceed
  split
  · exact ⟨rfl, rfl⟩
  · exact records_none run .completed ⟨bindings, [], none⟩

theorem records_step (run : Run) :
    Records run (run.step program).2 (run.step program).1 := by
  unfold step
  split
  · exact records_none run run.phase run.place
  · exact records_proceed run _ _
  · split
    · exact records_proceed run _ _
    · dsimp only
      split
      · exact ⟨rfl, rfl⟩
      · exact records_proceed run _ _

theorem records_after (run : Run) (program : Program) (count : Nat) :
    (run.after program count).emitted = run.emitted + (run.shown program count).length ∧
      (run.after program count).trace = run.trace.map (· ++ run.shown program count) := by
  induction count with
  | zero => cases kept : run.trace <;> simp [after, shown, kept]
  | succ count ih =>
      obtain ⟨counted, kept⟩ := ih
      obtain ⟨countedStep, keptStep⟩ := @records_step program (run.after program count)
      constructor
      · rw [after, countedStep, counted, shown_succ, List.length_append, Nat.add_assoc]
        rfl
      · rw [after, keptStep, kept, Option.map_map, shown_succ]
        congr 1
        funext snapshots
        exact List.append_assoc _ _ _

def untraced (run : Run) : Run := { run with trace := none }

theorem step_untraced (run : Run) (program : Program) :
    run.untraced.step program = ((run.step program).1, (run.step program).2.untraced) := by
  have proceeded (bindings : Bindings) (stack : List Frame) :
      run.untraced.proceed program bindings stack =
        ((run.proceed program bindings stack).1,
          (run.proceed program bindings stack).2.untraced) := by
    unfold proceed
    split <;> rfl
  cases phase : run.phase with
  | completed => simp only [step, untraced, phase]
  | ready => simpa only [step, untraced, phase] using proceeded _ _
  | running =>
      cases waits : run.pending with
      | none => simpa only [step, untraced, phase, waits] using proceeded _ _
      | some statement =>
          cases sleeps : (effect program run.bindings run.stack statement).sleep with
          | none => simpa only [step, untraced, phase, waits, sleeps] using proceeded _ _
          | some duration => simp only [step, untraced, phase, waits, sleeps, emit, Option.map_none]

theorem after_untraced (program : Program) (traced : Bool) (count : Nat) :
    ((start traced).after program count).untraced = (start false).after program count := by
  induction count with
  | zero => rfl
  | succ count ih => rw [after, after, ← ih, step_untraced]

theorem result_untraced (program : Program) (traced : Bool) (count : Nat) :
    (start traced).result program count = (start false).result program count := by
  rw [result, result, ← after_untraced program traced count, step_untraced]

end Steps

/-- The states of every run after any number of steps.  It is ready as long as no
step was made.  It is running as long as there are frames; they then have the
shape of `Stacked`, and a pending statement was taken last out of the innermost
one.  A completed run has neither frames nor a pending statement and stays as it
is.  Its counter and its trace tell what the steps returned, and but for the trace
itself a run that keeps one is the run that keeps none. -/
theorem states_of_every_run (program : Program) (traced : Bool) (count : Nat) :
    let run := (start traced).after program count
    let returned := (start traced).shown program count
    (run.phase = .ready ↔ count = 0) ∧
      (run.phase = .ready → run.stack = [] ∧ run.pending = none ∧ run.emitted = 0 ∧
        run.bindings = .seeded) ∧
      (run.phase = .running ↔ run.stack ≠ []) ∧
      (run.phase = .running → Stacked program run.stack) ∧
      (∀ statements next owner, .sequence statements next owner ∈ run.stack →
        next ≤ statements.length) ∧
      (∀ statement, run.pending = some statement → ∃ statements next owner rest,
        run.stack = .sequence statements (next + 1) owner :: rest ∧
          statements[next]? = some statement) ∧
      (run.phase = .completed → run.stack = [] ∧ run.pending = none ∧
        ∀ more, run.result program more = none ∧ run.after program more = run) ∧
      run.emitted = returned.length ∧
      run.trace = (if traced then some returned else none) ∧
      (start traced).result program count = (start false).result program count ∧
      run.untraced = (start false).after program count := by
  intro run returned
  have shaped : WellShaped program run := wellShaped_after program traced count
  have ready : run.phase = .ready ↔ count = 0 := phase_after_eq_ready_iff program traced count
  obtain ⟨counted, kept⟩ := records_after (start traced) program count
  have running (phase : run.phase = .running) : Stacked program run.stack ∧
      ∀ statement, run.pending = some statement → lastTaken? run.stack = some statement := by
    simpa only [WellShaped, phase] using shaped
  have ended (phase : run.phase ≠ .running) : run.stack = [] ∧ run.pending = none := by
    cases which : run.phase with
    | running => exact absurd which phase
    | ready => simpa only [WellShaped, which] using shaped
    | completed => simpa only [WellShaped, which] using shaped
  have isRunning (framed : run.stack ≠ []) : run.phase = .running :=
    Decidable.byContradiction fun phase => framed (ended phase).1
  refine ⟨ready, ?_, ?_, ?_, ?_, ?_, ?_, ?_, ?_, ?_, ?_⟩
  · intro phase
    obtain rfl := ready.mp phase
    exact ⟨rfl, rfl, rfl, rfl⟩
  · exact ⟨fun phase => (running phase).1.ne_nil, isRunning⟩
  · exact fun phase => (running phase).1
  · intro statements next owner member
    exact (running (isRunning (List.ne_nil_of_mem member))).1.next_le_of_mem member
  · intro statement waits
    have phase : run.phase = .running := by
      apply Decidable.byContradiction
      intro phase
      rw [(ended phase).2] at waits
      cases waits
    obtain ⟨frame, rest, framed, taken⟩ := exists_of_lastTaken? ((running phase).2 statement waits)
    cases frame with
    | loop _ _ _ => cases taken
    | sequence statements next owner =>
        cases next with
        | zero => cases taken
        | succ next => exact ⟨statements, next, owner, rest, framed, taken⟩
  · intro phase
    obtain ⟨noFrames, settled⟩ := ended (by rw [phase]; simp)
    exact ⟨noFrames, settled, fun more =>
      ⟨result_of_completed program phase more, after_of_completed phase more⟩⟩
  · exact counted.trans (Nat.zero_add _)
  · rw [kept]
    cases traced <;> rfl
  · exact result_untraced program traced count
  · exact after_untraced program traced count

end Run

end BlockStage

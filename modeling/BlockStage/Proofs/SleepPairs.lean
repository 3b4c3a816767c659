import BlockStage.Proofs.RunDisplay
import BlockStage.Proofs.RunFrames
import BlockStage.Proofs.UnpacedDrive

/-!
# Sleeps are shown in pairs

A sleep is shown twice, first without and then with the time it asks for, and nothing
comes between the two snapshots.  Snapshots of one statement may follow each other for
other reasons as well: a sleep can stand several times in a list, and the owner of an
empty body is shown once more.  What keeps the pairs apart is that an owner is a branch
or a loop, so a sleep that is shown without a time is always still to take effect.
-/

namespace BlockStage

/-- The two snapshots of a sleep: the same statement under the same variables, and the
second one asks for the time that the sleep has under them. -/
structure SleepPair (program : Program) (first second : Snapshot) : Prop where
  statement : second.statement = first.statement
  values : second.values = first.values
  special : second.special = first.special
  untimed : first.duration = none
  timed : ∃ value bindings, program.statement? first.statement = some (.sleep value) ∧
    first.values = Bindings.pairs bindings ∧
      second.duration = some (program.evaluate bindings value)

theorem sleepPair_capture {program : Program} {statement : StatementId} {value : ExpressionId}
    (node : program.statement? statement = some (.sleep value)) (bindings : Bindings) :
    SleepPair program (.capture statement bindings none)
      (.capture statement bindings (some (program.evaluate bindings value))) where
  statement := rfl
  values := rfl
  special := rfl
  untimed := rfl
  timed := ⟨value, bindings, node, rfl, rfl⟩

namespace Run

variable {program : Program}

/-! ### Owners -/

theorem Stacked.not_isSleep_loop {statement : StatementId} {condition : ExpressionId}
    {body : ListId} {rest : List Frame}
    (stacked : Stacked program (.loop statement condition body :: rest)) :
    ¬ program.IsSleep statement := by
  rintro ⟨value, sleeps⟩
  cases stacked with
  | loop node => simp [node] at sleeps

theorem Stacked.not_isSleep_owner {statements : List StatementId} {next : Nat}
    {owner : StatementId} {rest : List Frame}
    (stacked : Stacked program (.sequence statements next (some owner) :: rest)) :
    ¬ program.IsSleep owner := by
  cases stacked with
  | body node =>
      rintro ⟨value, sleeps⟩
      simp [node] at sleeps
  | round _ below => exact below.not_isSleep_loop

/-- Where the walk stops at a statement that has no effect left, it is the owner of an
empty body. -/
theorem not_isSleep_of_advance {bindings : Bindings} {stack : List Frame} {stop : Stop}
    (stacked : Stacked program stack) (stopped : advance program bindings stack = some stop)
    (settled : stop.pending = false) : ¬ program.IsSleep stop.statement := by
  induction stack with
  | nil => cases stopped
  | cons frame rest ih =>
      have goOn (left : advance program bindings rest = some stop) :
          ¬ program.IsSleep stop.statement := by
        refine ih (stacked.pop ?_) left
        rintro rfl
        cases left
      cases frame with
      | sequence statements next owner =>
          simp only [advance] at stopped
          split at stopped
          · cases stopped
            cases settled
          · split at stopped
            · cases stopped
              exact stacked.not_isSleep_owner
            · exact goOn stopped
      | loop statement condition body =>
          simp only [advance] at stopped
          split at stopped
          · cases stopped
            cases entered : program.listOrEmpty body with
            | nil => exact stacked.not_isSleep_loop
            | cons first others =>
                rw [entered] at settled
                cases settled
          · exact goOn stopped

/-! ### What a step shows -/

section Steps

variable {run : Run} {bindings : Bindings} {stack : List Frame}

theorem duration_proceed {snapshot : Snapshot}
    (shown : (run.proceed program bindings stack).1 = some snapshot) :
    snapshot.duration = none := by
  unfold proceed at shown
  split at shown
  · cases shown
    rfl
  · cases shown

theorem shown_of_pending_proceed {statement : StatementId}
    (waits : (run.proceed program bindings stack).2.pending = some statement) :
    (run.proceed program bindings stack).1 = some (.capture statement bindings none) := by
  unfold proceed at waits ⊢
  split at waits
  · rename_i stop stopped
    simp only [emit] at waits ⊢
    split at waits
    · cases waits
      rfl
    · cases waits
  · cases waits

theorem pending_proceed_of_isSleep {snapshot : Snapshot} (stacked : Stacked program stack)
    (shown : (run.proceed program bindings stack).1 = some snapshot)
    (sleeps : program.IsSleep snapshot.statement) :
    (run.proceed program bindings stack).2.phase = .running ∧
      (run.proceed program bindings stack).2.pending = some snapshot.statement := by
  cases stopped : advance program bindings stack with
  | none =>
      simp only [proceed, stopped] at shown
      cases shown
  | some stop =>
      simp only [proceed, stopped] at shown ⊢
      cases shown
      refine ⟨rfl, ?_⟩
      cases settled : stop.pending with
      | true => simp [emit, Snapshot.capture]
      | false => exact absurd sleeps (not_isSleep_of_advance stacked stopped settled)

/-- The time of a snapshot is the one for which the pending sleep asks. -/
theorem sleep_of_timed_step {snapshot : Snapshot} {duration : Float}
    (shaped : WellShaped program run) (shown : (run.step program).1 = some snapshot)
    (timed : snapshot.duration = some duration) :
    ∃ value, run.pending = some snapshot.statement ∧
      program.statement? snapshot.statement = some (.sleep value) ∧
      snapshot = .capture snapshot.statement run.bindings
        (some (program.evaluate run.bindings value)) := by
  obtain ⟨-, -, stepped⟩ | ⟨bindings, stack, -, stepped⟩ |
    ⟨statement, value, waits, node, stepped⟩ := step_cases shaped
  · rw [stepped] at shown
    cases shown
  · rw [stepped] at shown
    rw [duration_proceed shown] at timed
    cases timed
  · rw [stepped] at shown
    cases shown
    exact ⟨value, waits, node, rfl⟩

/-- A statement that is still to take effect is the one that was just shown. -/
theorem shown_of_pending_step {statement : StatementId} (shaped : WellShaped program run)
    (waits : (run.step program).2.pending = some statement) :
    (run.step program).1 = some (.capture statement (run.step program).2.bindings none) := by
  obtain ⟨-, settled, stepped⟩ | ⟨bindings, stack, -, stepped⟩ | ⟨_, _, -, -, stepped⟩ :=
    step_cases shaped
  · rw [stepped, settled] at waits
    cases waits
  · rw [stepped] at waits ⊢
    rw [bindings_proceed, shown_of_pending_proceed waits]
  · rw [stepped] at waits
    cases waits

/-- A sleep that is shown without a time is still to take effect. -/
theorem pending_step_of_isSleep {snapshot : Snapshot} (shaped : WellShaped program run)
    (shown : (run.step program).1 = some snapshot) (untimed : snapshot.duration = none)
    (sleeps : program.IsSleep snapshot.statement) :
    (run.step program).2.phase = .running ∧
      (run.step program).2.pending = some snapshot.statement := by
  obtain ⟨-, -, stepped⟩ | ⟨bindings, stack, stacked, stepped⟩ | ⟨_, _, -, -, stepped⟩ :=
    step_cases shaped
  · rw [stepped] at shown
    cases shown
  · rw [stepped] at shown ⊢
    exact pending_proceed_of_isSleep stacked shown sleeps
  · rw [stepped] at shown
    cases shown
    cases untimed

theorem step_of_pending_sleep {statement : StatementId} {value : ExpressionId}
    (running : run.phase = .running) (waits : run.pending = some statement)
    (node : program.statement? statement = some (.sleep value)) :
    (run.step program).1 =
      some (.capture statement run.bindings (some (program.evaluate run.bindings value))) := by
  simp only [step, running, waits, effect, node]
  rfl

end Steps

/-! ### Pairs in a run -/

theorem result_before_timed {traced : Bool} {count : Nat} {second : Snapshot} {duration : Float}
    (shown : (start traced).result program count = some second)
    (timed : second.duration = some duration) :
    ∃ earlier first, count = earlier + 1 ∧
      (start traced).result program earlier = some first ∧ SleepPair program first second := by
  obtain ⟨value, waits, node, captured⟩ :=
    sleep_of_timed_step (wellShaped_after program traced count) shown timed
  cases count with
  | zero => cases waits
  | succ earlier =>
      have before := shown_of_pending_step (wellShaped_after program traced earlier) waits
      refine ⟨earlier, _, rfl, before, ?_⟩
      rw [captured]
      exact sleepPair_capture node _

theorem result_behind_untimed {traced : Bool} {count : Nat} {first : Snapshot}
    (shown : (start traced).result program count = some first) (untimed : first.duration = none)
    (sleeps : program.IsSleep first.statement) :
    ∃ second, (start traced).result program (count + 1) = some second ∧
      SleepPair program first second := by
  have shaped := wellShaped_after program traced count
  obtain ⟨value, node⟩ := sleeps
  obtain ⟨running, waits⟩ := pending_step_of_isSleep shaped shown untimed ⟨value, node⟩
  have captured := shown_of_pending_step shaped waits
  refine ⟨_, step_of_pending_sleep running waits node, ?_⟩
  rw [Option.some.inj (shown.symm.trans captured)]
  exact sleepPair_capture node _

end Run

/-! ### Pauses of a drive -/

theorem Span.pauseFor_none (unit : Span) : pauseFor none unit = zero :=
  pauseFor_of_not_pos unit (by simp)

namespace Drive

open Event (render?)

variable {settings : DriveSettings}

/-- A snapshot behind which a drive waits has a duration. -/
theorem exists_duration_of_wait {snapshot : Snapshot}
    (takesTime : (waitFor settings snapshot).nanoseconds ≠ 0) :
    ∃ duration, snapshot.duration = some duration := by
  cases timed : snapshot.duration with
  | some duration => exact ⟨duration, rfl⟩
  | none =>
      rw [waitFor, timed, Span.pauseFor_none] at takesTime
      exact absurd rfl takesTime

/-- The only pause of a turn is at its end, behind the snapshot that was rendered. -/
theorem turnEvents_split {snapshot : Snapshot} {before later : List Event} {wait : Span}
    (split : turnEvents settings snapshot = before ++ .paused wait :: later) :
    before = [.checked false, .pulled (some snapshot), .rendered snapshot] ∧
      wait = waitFor settings snapshot ∧ wait.nanoseconds ≠ 0 := by
  have member : .paused wait ∈ turnEvents settings snapshot := by
    rw [split]
    simp
  by_cases timeless : (waitFor settings snapshot).nanoseconds = 0
  · simp [turnEvents, timeless] at member
  · obtain rfl : wait = waitFor settings snapshot := by
      simpa [turnEvents, timeless] using member
    refine ⟨?_, rfl, timeless⟩
    simp only [turnEvents, timeless, if_false] at split
    rcases before with _ | ⟨check, _ | ⟨pull, _ | ⟨render, _ | ⟨pause, more⟩⟩⟩⟩
    · cases split
    · cases split
    · cases split
    · simp only [List.cons_append, List.nil_append, List.cons.injEq] at split
      obtain ⟨rfl, rfl, rfl, -⟩ := split
      rfl
    · simp at split

/-- Every pause in the log of a drive stands right behind a rendered snapshot, for which the
drive waits. -/
theorem events_split {snapshots : List Snapshot} {ending before later : List Event} {wait : Span}
    (isEnd : IsEnd ending)
    (split : snapshots.flatMap (turnEvents settings) ++ ending =
      before ++ .paused wait :: later) :
    ∃ shown snapshot rest, snapshots = shown ++ snapshot :: rest ∧
      before = shown.flatMap (turnEvents settings) ++
        [.checked false, .pulled (some snapshot), .rendered snapshot] ∧
      wait = waitFor settings snapshot ∧ wait.nanoseconds ≠ 0 := by
  induction snapshots generalizing before with
  | nil =>
      have quiet := isEnd.pauses
      rw [List.flatMap_nil, List.nil_append] at split
      rw [split, List.filterMap_append] at quiet
      simp [Event.pause?] at quiet
  | cons snapshot rest ih =>
      rw [List.flatMap_cons, List.append_assoc, List.append_eq_append_iff] at split
      -- The pause is in a later turn, or it is the one of this turn.
      obtain ⟨behind, rfl, splitLater⟩ | ⟨inTurn, here, splitHere⟩ := split
      · obtain ⟨shown, paused, others, rfl, rfl, waits⟩ := ih splitLater
        exact ⟨snapshot :: shown, paused, others, rfl, by simp, waits⟩
      · cases inTurn with
        | nil =>
            have later' : rest.flatMap (turnEvents settings) ++ ending =
                [] ++ .paused wait :: later := by
              simpa using splitHere.symm
            obtain ⟨shown, paused, others, rfl, same, waits⟩ := ih later'
            simp at same
        | cons event events =>
            rw [List.cons_append, List.cons.injEq] at splitHere
            obtain ⟨rfl, -⟩ := splitHere
            obtain ⟨rfl, waits⟩ := turnEvents_split here
            exact ⟨[], snapshot, rest, rfl, rfl, waits⟩

theorem renders_turns (shown : List Snapshot) :
    (shown.flatMap (turnEvents settings)).filterMap render? = shown := by
  induction shown with
  | nil => rfl
  | cons snapshot rest ih =>
      have turn : (turnEvents settings snapshot).filterMap render? = [snapshot] := by
        unfold turnEvents
        split <;> rfl
      rw [List.flatMap_cons, List.filterMap_append, turn, ih, List.singleton_append]

/-- A drive of a run waits only right behind the second snapshot of a sleep, which it has
rendered right after the first. -/
theorem paused_behind_pair {program : Program} {traced : Bool} {σ : Type} {host : Host σ}
    {standsAt : Nat → σ → Prop}
    (plays : host.PlaysFrom ((Run.start traced).result program) standsAt) {state : σ}
    (fresh : standsAt 0 state) {turns : Nat} {before later : List Event} {wait : Span}
    (split : logAfter host settings turns state = before ++ .paused wait :: later) :
    ∃ earlier first second, before = earlier ++ [.rendered second] ∧
      (earlier.filterMap render?).getLast? = some first ∧ SleepPair program first second ∧
      wait = waitFor settings second := by
  obtain ⟨snapshots, ending, noted, numbered, isEnd⟩ :=
    progress_recorded plays settings turns fresh []
  have log : logAfter host settings turns state =
      snapshots.flatMap (turnEvents settings) ++ ending := noted
  obtain ⟨shown, second, rest, rfl, rfl, rfl, takesTime⟩ := events_split isEnd (log ▸ split)
  rw [← List.range_eq_range'] at numbered
  have result (number : Nat) (inside : number < (shown ++ second :: rest).length) :
      (shown ++ second :: rest)[number]? = (Run.start traced).result program number := by
    have same := congrArg (·[number]?) numbered
    simp only [List.getElem?_map, List.getElem?_range inside, Option.map_some] at same
    obtain ⟨snapshot, found, same⟩ := Option.map_eq_some_iff.mp same
    rw [found, same]
  have resultSecond : (Run.start traced).result program shown.length = some second := by
    rw [← result shown.length (by simp)]
    simp
  obtain ⟨duration, timed⟩ := exists_duration_of_wait takesTime
  obtain ⟨earlier, first, position, resultFirst, pair⟩ :=
    Run.result_before_timed resultSecond timed
  have last : shown.getLast? = some first := by
    have inside : earlier < (shown ++ second :: rest).length := by
      rw [List.length_append]
      omega
    rw [List.getLast?_eq_getElem?, position, Nat.add_sub_cancel, ← resultFirst,
      ← result earlier inside, List.getElem?_append_left (by omega)]
  refine ⟨shown.flatMap (turnEvents settings) ++ [.checked false, .pulled (some second)], first,
    second, by simp, ?_, pair, rfl⟩
  have quiet : [Event.checked false, .pulled (some second)].filterMap render? = [] := rfl
  rw [List.filterMap_append, renders_turns, quiet, List.append_nil, last]

end Drive

/-- In every run the snapshots with a duration are exactly the second ones of pairs that show
a sleep: the same statement and the same variables come right before, without a duration, and
a sleep that is shown without a duration is shown with one in the very next step.  So
whoever drives the run waits only right behind the second snapshot of a sleep. -/
theorem Run.sleeps_are_shown_in_pairs (program : Program) (traced : Bool) :
    (∀ count second duration, (start traced).result program count = some second →
      second.duration = some duration →
      ∃ earlier first, count = earlier + 1 ∧
        (start traced).result program earlier = some first ∧ SleepPair program first second) ∧
    (∀ count first value, (start traced).result program count = some first →
      first.duration = none → program.statement? first.statement = some (.sleep value) →
      ∃ second, (start traced).result program (count + 1) = some second ∧
        SleepPair program first second) ∧
    ∀ (σ : Type) (host : Host σ) (standsAt : Nat → σ → Prop) (settings : DriveSettings)
      (turns : Nat) (state : σ) (before later : List Event) (wait : Span),
      host.PlaysFrom ((start traced).result program) standsAt → standsAt 0 state →
      Drive.logAfter host settings turns state = before ++ .paused wait :: later →
      ∃ earlier first second, before = earlier ++ [.rendered second] ∧
        (earlier.filterMap Event.render?).getLast? = some first ∧
        SleepPair program first second ∧ wait = Drive.waitFor settings second := by
  refine ⟨?_, ?_, ?_⟩
  · intro count second duration shown timed
    exact result_before_timed shown timed
  · intro count first value shown untimed node
    exact result_behind_untimed shown untimed ⟨value, node⟩
  · intro σ host standsAt settings turns state before later wait plays fresh split
    exact Drive.paused_behind_pair plays fresh split

/-- Sleeps twice by the same statement, in front of a branch that has no bodies. -/
def repeatedSleep : Program where
  statements := Arena.ofEntries [("0", .sleep "0"), ("1", .branch "9" "1" "2")]
  expressions := Arena.ofEntries [("0", .constant 2)]
  lists := Arena.ofEntries [(entryList, ["0", "0", "1"])]
  statementCount := 2
  expressionCount := 10
  listCount := 3

/-- The third and the fourth snapshot show the second sleep. -/
theorem repeatedSleep_paired :
    ∃ first second, (Run.start false).result repeatedSleep 2 = some first ∧
      (Run.start false).result repeatedSleep 3 = some second ∧ second.duration = some 2 ∧
      SleepPair repeatedSleep first second := by
  have shown : (Run.start false).result repeatedSleep 3 =
      some (.capture "0" .seeded (some 2)) := by
    with_unfolding_all rfl
  obtain ⟨earlier, first, position, before, pair⟩ :=
    (Run.sleeps_are_shown_in_pairs repeatedSleep false).1 3 _ 2 shown rfl
  obtain rfl : earlier = 2 := by omega
  exact ⟨first, _, before, shown, rfl, pair⟩

end BlockStage

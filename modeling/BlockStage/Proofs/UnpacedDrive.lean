import BlockStage.Proofs.DriveLog
import BlockStage.Proofs.RoundedPause
import BlockStage.Proofs.RunLoop
import BlockStage.Terminal

/-!
# Drives without pacing

When a unit of sleep takes no time, a sleep of any finite length takes none either:
the length is multiplied by zero.  An infinite sleep is different, since zero times
infinity is no number, and what is no number of seconds counts as too long.  So a drive
without pacing waits behind exactly those snapshots that ask for an infinite sleep, and
there it waits for the longest span.  The log of a drive is looked at after any number
of turns, because a drive need not end.
-/

namespace BlockStage

namespace Span

theorem toSeconds_zero : zero.toSeconds = 0 := rfl

theorem ofSecondsOrLongest_zero : ofSecondsOrLongest 0 = zero := by
  have inRange : ¬ (decide ((0 : Float) < 0) || !(0 : Float).isFinite) = true := by decide
  have rounded : roundHalfEven (Binary64.units (Binary64.index 0) * nanosecondsPerSecond)
      Binary64.unitsPerOne = 0 := by
    decide +kernel
  rw [ofSecondsOrLongest, ofSeconds?, if_neg inRange, rounded]
  rfl

theorem ofSecondsOrLongest_nan : ofSecondsOrLongest Binary64.nan = longest := rfl

theorem ofMilliseconds_eq_zero {milliseconds : Float}
    (unpaced : milliseconds.isNaN = true ∨ milliseconds ≤ 0) :
    ofMilliseconds milliseconds = zero := by
  rw [ofMilliseconds, if_pos]
  simpa using unpaced

/-- Without pacing a snapshot asks for no time or for the longest. -/
theorem pauseFor_zero (duration : Option Float) :
    pauseFor duration zero =
      if duration = some (Binary64.infinity false) then longest else zero := by
  cases duration with
  | none =>
      rw [pauseFor_of_not_pos zero (by simp)]
      simp
  | some units =>
      by_cases above : 0 < units
      · obtain ⟨isNumber, notBelow⟩ := (Binary64.zero_lt_iff units).mp above
        rw [pauseFor_of_pos zero above, toSeconds_zero]
        obtain rfl | ⟨mantissa, exponent, positive, unpacked⟩ :=
          Binary64.above_zero_cases isNumber notBelow
        · rw [Binary64.zero_mul_infinity, ofSecondsOrLongest_nan]
          simp
        · have finite : some units ≠ some (Binary64.infinity false) := by
            intro same
            rw [Option.some.inj same] at unpacked
            cases unpacked
          rw [Binary64.zero_mul_of_finite unpacked, ofSecondsOrLongest_zero, if_neg finite]
      · have finite : some units ≠ some (Binary64.infinity false) := by
          intro same
          rw [Option.some.inj same] at above
          exact above (by decide)
        rw [pauseFor_of_not_pos zero (by simp [above]), if_neg finite]

end Span

namespace Drive

open Event (render? pause?)

variable {σ : Type}

/-- How a drive stands after a number of turns: it goes on, or it has ended. -/
def progress (host : Host σ) (settings : DriveSettings) :
    Nat → Nat → σ → (Nat × σ) ⊕ (Outcome × σ)
  | 0, rendered, state => .inl (rendered, state)
  | turns + 1, rendered, state =>
      match turn host settings rendered state with
      | .inl (rendered, state) => progress host settings turns rendered state
      | .inr (outcome, state) => .inr (outcome, host.finish outcome state)

theorem within_eq_progress (host : Host σ) (settings : DriveSettings) (turns rendered : Nat)
    (state : σ) :
    within host settings turns rendered state =
      (progress host settings turns rendered state).getRight? := by
  induction turns generalizing rendered state with
  | zero => rfl
  | succ turns ih =>
      cases turned : turn host settings rendered state with
      | inl standing => simp only [within, progress, turned, ih]
      | inr ended => simp only [within, progress, turned, Sum.getRight?_inr]

/-- What a drive has asked of its host in a number of turns. -/
def logAfter (host : Host σ) (settings : DriveSettings) (turns : Nat) (state : σ) : List Event :=
  ((progress host.recorded settings turns 0 (state, [])).elim Prod.snd Prod.snd).2

section Turns

variable {host : Host σ} {sequence : Nat → Option Snapshot} {standsAt : Nat → σ → Prop}

/-- What stands in a log behind the turns that have rendered a snapshot: nothing while the
drive goes on. -/
def IsEnd (events : List Event) : Prop :=
  events = [] ∨ ∃ outcome : Outcome, events = lastEvents outcome.ending ++ [.finished outcome]

theorem IsEnd.renders {events : List Event} (isEnd : IsEnd events) :
    events.filterMap render? = [] := by
  rcases isEnd with rfl | ⟨⟨ending, rendered⟩, rfl⟩
  · rfl
  · cases ending <;> rfl

theorem IsEnd.pauses {events : List Event} (isEnd : IsEnd events) :
    events.filterMap pause? = [] := by
  rcases isEnd with rfl | ⟨⟨ending, rendered⟩, rfl⟩
  · rfl
  · cases ending <;> rfl

theorem progress_recorded (plays : host.PlaysFrom sequence standsAt) (settings : DriveSettings)
    (turns : Nat) {rendered : Nat} {state : σ} (stands : standsAt rendered state)
    (log : List Event) :
    ∃ (snapshots : List Snapshot) (ending : List Event),
      ((progress host.recorded settings turns rendered (state, log)).elim Prod.snd Prod.snd).2 =
          log ++ (snapshots.flatMap (turnEvents settings) ++ ending) ∧
      snapshots.map some = (List.range' rendered snapshots.length).map sequence ∧
      IsEnd ending := by
  induction turns generalizing rendered state log with
  | zero => exact ⟨[], [], by simp [progress], rfl, Or.inl rfl⟩
  | succ turns ih =>
      obtain ⟨snapshot, after, numbered, standsAfter, -, -, noted⟩ |
        ⟨ending, after, -, -, noted⟩ := turn_recorded plays settings stands log
      · obtain ⟨snapshots, ending, rest, numberedRest, isEnd⟩ :=
          ih standsAfter (log ++ turnEvents settings snapshot)
        refine ⟨snapshot :: snapshots, ending, ?_, ?_, isEnd⟩
        · simp only [progress, noted, rest, List.flatMap_cons, List.append_assoc]
        · rw [List.map_cons, numberedRest, List.length_cons, List.range'_succ, List.map_cons,
            numbered]
      · refine ⟨[], _, ?_, rfl, Or.inr ⟨⟨ending, rendered⟩, rfl⟩⟩
        simp only [progress, noted]
        simp [Host.recorded]

/-- Whether or not it has ended, a drive has rendered the first snapshots of the sequence
and waited behind those that take time. -/
theorem logAfter_shows (plays : host.PlaysFrom sequence standsAt) (settings : DriveSettings)
    (turns : Nat) {state : σ} (fresh : standsAt 0 state) :
    ∃ snapshots : List Snapshot,
      (logAfter host settings turns state).filterMap render? = snapshots ∧
      snapshots.map some = (List.range snapshots.length).map sequence ∧
      (logAfter host settings turns state).filterMap pause? =
        (snapshots.map (waitFor settings)).filter fun wait => wait.nanoseconds != 0 := by
  obtain ⟨snapshots, ending, noted, numbered, isEnd⟩ :=
    progress_recorded plays settings turns fresh []
  have log : logAfter host settings turns state =
      snapshots.flatMap (turnEvents settings) ++ ending := noted
  -- A drive that ends here would have the same log up to its end.
  have completed : IsEnd (lastEvents .completed ++ [.finished ⟨.completed, 0⟩]) :=
    Or.inr ⟨⟨.completed, 0⟩, rfl⟩
  have whole {α : Type} (kind : Event → Option α)
      (quiet : ∀ events, IsEnd events → events.filterMap kind = []) :
      (logAfter host settings turns state).filterMap kind =
        (allEvents settings snapshots ⟨.completed, 0⟩).filterMap kind := by
    rw [log, allEvents, List.append_assoc, List.filterMap_append, List.filterMap_append,
      quiet _ isEnd, quiet _ completed]
  rw [← List.range_eq_range'] at numbered
  refine ⟨snapshots, ?_, numbered, ?_⟩
  · rw [whole render? fun _ => IsEnd.renders, renders_allEvents]
  · rw [whole pause? fun _ => IsEnd.pauses, pauses_allEvents]

end Turns

theorem waits_of_zero_unit (limit : Option Nat) (snapshots : List Snapshot) :
    ((snapshots.map (waitFor ⟨Span.zero, limit⟩)).filter fun wait => wait.nanoseconds != 0) =
      (snapshots.filter fun snapshot =>
        decide (snapshot.duration = some (Binary64.infinity false))).map fun _ => Span.longest := by
  induction snapshots with
  | nil => rfl
  | cons snapshot later ih =>
      have wait : waitFor ⟨Span.zero, limit⟩ snapshot =
          if snapshot.duration = some (Binary64.infinity false) then Span.longest else Span.zero :=
        Span.pauseFor_zero snapshot.duration
      by_cases endless : snapshot.duration = some (Binary64.infinity false)
      · have long : (Span.longest.nanoseconds != 0) = true := by decide
        simp [wait, endless, long, ih]
      · have short : (Span.zero.nanoseconds != 0) = false := by decide
        simp [wait, endless, short, ih]

end Drive

namespace Terminal

/-- A terminal shows the run of its program. -/
theorem host_playsFrom {ω π : Type} (program : Program) (format : SnapshotFormat)
    (devices : Devices ω π) :
    (host program format devices).PlaysFrom ((Run.start false).result program)
      fun number state => state.run = (Run.start false).after program number where
  pull_eq := by
    intro number state stands
    simp only [host, stands]
    rfl
  pull_moves := by
    intro number state snapshot stands numbered
    simp only [host, stands]
    rfl
  isCancelled_stays := fun stands => stands
  render_stays := fun _ stands => stands
  pause_stays := fun _ stands => stands

end Terminal

/-- A drive without pacing shows the run of a program and waits, for the longest span, just
behind the snapshots that ask for an infinite sleep.  No other sleep takes any time, be it
huge, negative or no number. -/
theorem Drive.unpaced_drive_waits_for_infinity (program : Program) {milliseconds : Float}
    (unpaced : milliseconds.isNaN = true ∨ milliseconds ≤ 0) (limit : Option Nat) {σ : Type}
    {host : Host σ} {standsAt : Nat → σ → Prop}
    (plays : host.PlaysFrom ((Run.start false).result program) standsAt) {state : σ}
    (fresh : standsAt 0 state) (turns : Nat) :
    let log := logAfter host ⟨Span.ofMilliseconds milliseconds, limit⟩ turns state
    let shown := log.filterMap Event.render?
    shown.map some = (List.range shown.length).map ((Run.start false).result program) ∧
      (log.filterMap Event.pause? =
        (shown.filter fun snapshot =>
          decide (snapshot.duration = some (Binary64.infinity false))).map fun _ =>
            Span.longest) ∧
      (log.filterMap Event.pause? = [] ↔
        ∀ snapshot ∈ shown, snapshot.duration ≠ some (Binary64.infinity false)) := by
  intro log shown
  obtain ⟨snapshots, renders, numbered, pauses⟩ :=
    logAfter_shows plays ⟨Span.ofMilliseconds milliseconds, limit⟩ turns fresh
  obtain rfl : shown = snapshots := renders
  rw [Span.ofMilliseconds_eq_zero unpaced, waits_of_zero_unit] at pauses
  have waits : log.filterMap Event.pause? =
      (shown.filter fun snapshot =>
        decide (snapshot.duration = some (Binary64.infinity false))).map fun _ =>
          Span.longest := by
    simpa only [log, Span.ofMilliseconds_eq_zero unpaced] using pauses
  refine ⟨numbered, waits, ?_⟩
  rw [waits, List.map_eq_nil_iff, List.filter_eq_nil_iff]
  simp only [decide_eq_true_eq, ne_eq]

namespace Terminal

/-- Devices that take every text, throw it away, and note for how long they should wait. -/
def notingDevices : Devices Unit (List Span) where
  write _ output := (true, output)
  wait span pacer := (false, pacer ++ [span])

/-- A run that has not been started, on these devices. -/
def notingStart : Show Unit (List Span) where
  run := .start false
  output := ()
  pacer := []
  cancelled := false

end Terminal

/-- Sleeps for a huge time, for no number of units and for less than none. -/
def finiteSleeps : Program where
  statements := Arena.ofEntries [("0", .sleep "0"), ("1", .sleep "1"), ("2", .sleep "2")]
  expressions := Arena.ofEntries
    [("0", .constant 1e308), ("1", .binary (.arithmetic .divide) "7" "7"), ("2", .constant (-5))]
  lists := Arena.ofEntries [(entryList, ["0", "1", "2"])]
  statementCount := 3
  expressionCount := 8
  listCount := 0

/-- None of the three sleeps takes any time. -/
theorem finiteSleeps_unpaced :
    (0.0 / 0.0 : Float).isNaN = true ∧
      (Drive.logAfter (Terminal.host finiteSleeps .text Terminal.notingDevices)
        ⟨Span.ofMilliseconds (0.0 / 0.0), none⟩ 7 Terminal.notingStart).filterMap
          Event.pause? = [] := by
  have isNaN : (0.0 / 0.0 : Float).isNaN = true := by decide +kernel
  have fresh : Terminal.notingStart.run = (Run.start false).after finiteSleeps 0 := rfl
  refine ⟨isNaN, ?_⟩
  obtain ⟨-, -, timeless⟩ := Drive.unpaced_drive_waits_for_infinity finiteSleeps (.inl isNaN) none
    (Terminal.host_playsFrom finiteSleeps .text Terminal.notingDevices) fresh 7
  apply timeless.mpr
  decide +kernel

/-- Sleeps for one divided by zero. -/
def endlessSleep : Program where
  statements := Arena.ofEntries [("0", .sleep "0")]
  expressions := Arena.ofEntries
    [("0", .binary (.arithmetic .divide) "1" "2"), ("1", .constant 1)]
  lists := Arena.ofEntries [(entryList, ["0"])]
  statementCount := 1
  expressionCount := 3
  listCount := 0

/-- Without pacing this sleep still waits for the longest span. -/
theorem endlessSleep_waits :
    ∃ final, Drive.within (Terminal.host endlessSleep .text Terminal.notingDevices)
        ⟨Span.ofMilliseconds 0, none⟩ 3 0 Terminal.notingStart = some (⟨.completed, 2⟩, final) ∧
      final.pacer.map Span.nanoseconds = [Span.longest.nanoseconds] := by
  have waited : (Drive.within (Terminal.host endlessSleep .text Terminal.notingDevices)
      ⟨Span.ofMilliseconds 0, none⟩ 3 0 Terminal.notingStart).map
        (fun ended => (ended.1, ended.2.pacer.map Span.nanoseconds)) =
      some (⟨.completed, 2⟩, [Span.longest.nanoseconds]) := by
    decide +kernel
  obtain ⟨⟨outcome, final⟩, returned, ended⟩ := Option.map_eq_some_iff.mp waited
  obtain ⟨rfl, pacer⟩ := Prod.mk.inj ended
  exact ⟨final, returned, pacer⟩

end BlockStage

import BlockStage.Rehearsal
import Mathlib.Data.List.Pairwise

/-!
# What a drive asks of its host

A drive is known by what it asks of its host: whether it is cancelled, for the
next snapshot, to render one, to wait, and to take note of the outcome.  This
file writes these events down and says exactly which they are, for every sequence
of snapshots and every host.  Nothing is assumed of the host but that its
snapshots come from the sequence; in particular the answers to the question
whether the drive is cancelled are arbitrary, so the drive may be cancelled at
any moment and by anyone.

A turn that goes on asks once, finds the drive not cancelled, pulls a snapshot,
renders it and waits if that takes any time.  The last turn asks once more and
may find the sequence at its end.  All counts follow from that.
-/

namespace BlockStage

/-- Something that a drive asks of its host, with the host's answer. -/
inductive Event where
  | checked (cancelled : Bool)
  | pulled (answer : Option Snapshot)
  | rendered (snapshot : Snapshot)
  | paused (wait : Span)
  | finished (outcome : Outcome)

namespace Event

/-- The answer to the question whether the drive is cancelled. -/
def check? : Event → Option Bool
  | .checked cancelled => some cancelled
  | _ => none

def pull? : Event → Option (Option Snapshot)
  | .pulled answer => some answer
  | _ => none

def render? : Event → Option Snapshot
  | .rendered snapshot => some snapshot
  | _ => none

def pause? : Event → Option Span
  | .paused wait => some wait
  | _ => none

def outcome? : Event → Option Outcome
  | .finished outcome => some outcome
  | _ => none

end Event

namespace Host

variable {σ : Type}

/-- The same host, which writes down whatever is asked of it. -/
def recorded (host : Host σ) : Host (σ × List Event) where
  isCancelled := fun (state, log) =>
    let (cancelled, after) := host.isCancelled state
    (cancelled, after, log ++ [.checked cancelled])
  pull := fun (state, log) =>
    let (answer, after) := host.pull state
    (answer, after, log ++ [.pulled answer])
  render snapshot := fun (state, log) => (host.render snapshot state, log ++ [.rendered snapshot])
  pause wait := fun (state, log) => (host.pause wait state, log ++ [.paused wait])
  finish outcome := fun (state, log) => (host.finish outcome state, log ++ [.finished outcome])

/-- The host takes its snapshots from a sequence, which may be endless: in a state
that stands at a number it gives the snapshot with that number, and it stands at
the next one afterwards.  Nothing else moves it in the sequence. -/
structure PlaysFrom (host : Host σ) (sequence : Nat → Option Snapshot)
    (standsAt : Nat → σ → Prop) : Prop where
  pull_eq : ∀ {number state}, standsAt number state → (host.pull state).1 = sequence number
  pull_moves : ∀ {number state snapshot}, standsAt number state →
    sequence number = some snapshot → standsAt (number + 1) (host.pull state).2
  isCancelled_stays : ∀ {number state}, standsAt number state →
    standsAt number (host.isCancelled state).2
  render_stays : ∀ {number state} snapshot, standsAt number state →
    standsAt number (host.render snapshot state)
  pause_stays : ∀ {number state} wait, standsAt number state →
    standsAt number (host.pause wait state)

end Host

namespace Drive

open Event (check? pull? render? pause? outcome?)

/-- The time that a drive waits behind a snapshot. -/
def waitFor (settings : DriveSettings) (snapshot : Snapshot) : Span :=
  Span.pauseFor snapshot.duration settings.timeUnit

def turnEvents (settings : DriveSettings) (snapshot : Snapshot) : List Event :=
  [.checked false, .pulled (some snapshot), .rendered snapshot] ++
    if (waitFor settings snapshot).nanoseconds = 0 then [] else [.paused (waitFor settings snapshot)]

def lastEvents : Ending → List Event
  | .cancelled => [.checked true]
  | .limitReached => [.checked false]
  | .completed => [.checked false, .pulled none]

def allEvents (settings : DriveSettings) (snapshots : List Snapshot) (outcome : Outcome) :
    List Event :=
  snapshots.flatMap (turnEvents settings) ++ lastEvents outcome.ending ++ [.finished outcome]

/-- The outcome has a reason in the settings and the sequence, unless the drive was
cancelled. -/
def HasReason (settings : DriveSettings) (sequence : Nat → Option Snapshot) (outcome : Outcome) :
    Prop :=
  match outcome.ending with
  | .cancelled => True
  | .limitReached => atLimit settings outcome.rendered = true
  | .completed =>
      atLimit settings outcome.rendered = false ∧ sequence outcome.rendered = none

section Turns

variable {σ : Type} {host : Host σ} {sequence : Nat → Option Snapshot}
variable {standsAt : Nat → σ → Prop}

/-- What a turn can do, recorded or not: it renders the snapshot at which the host
stands, or it ends the drive for a reason. -/
theorem turn_recorded (plays : host.PlaysFrom sequence standsAt) (settings : DriveSettings)
    {rendered : Nat} {state : σ} (stands : standsAt rendered state) (log : List Event) :
    (∃ snapshot after, sequence rendered = some snapshot ∧ standsAt (rendered + 1) after ∧
      atLimit settings rendered = false ∧
      turn host settings rendered state = .inl (rendered + 1, after) ∧
      turn host.recorded settings rendered (state, log) =
        .inl (rendered + 1, after, log ++ turnEvents settings snapshot)) ∨
    ∃ ending after, HasReason settings sequence ⟨ending, rendered⟩ ∧
      turn host settings rendered state = .inr (⟨ending, rendered⟩, after) ∧
      turn host.recorded settings rendered (state, log) =
        .inr (⟨ending, rendered⟩, after, log ++ lastEvents ending) := by
  have asked := plays.isCancelled_stays stands
  cases check : host.isCancelled state with
  | mk cancelled checked =>
  rw [check] at asked
  cases cancelled with
  | true =>
      refine Or.inr ⟨.cancelled, checked, trivial, ?_, ?_⟩
      · simp [turn, check]
      · simp [turn, Host.recorded, check, lastEvents]
  | false =>
      cases limit : atLimit settings rendered with
      | true =>
          refine Or.inr ⟨.limitReached, checked, limit, ?_, ?_⟩
          · simp [turn, check, limit]
          · simp [turn, Host.recorded, check, limit, lastEvents]
      | false =>
          have answered := plays.pull_eq asked
          cases pull : host.pull checked with
          | mk answer pulled =>
          rw [pull] at answered
          cases answer with
          | none =>
              refine Or.inr ⟨.completed, pulled, ⟨limit, answered.symm⟩, ?_, ?_⟩
              · simp [turn, check, limit, pull]
              · simp [turn, Host.recorded, check, limit, pull, lastEvents]
          | some snapshot =>
              have moved := plays.pull_moves asked answered.symm
              rw [pull] at moved
              have shown := plays.render_stays snapshot moved
              left
              by_cases timeless : (Span.pauseFor snapshot.duration settings.timeUnit).nanoseconds = 0
              · refine ⟨snapshot, host.render snapshot pulled, answered.symm, shown, rfl, ?_, ?_⟩
                · simp [turn, check, limit, pull, timeless]
                · simp [turn, Host.recorded, check, limit, pull, timeless, turnEvents, waitFor]
              · refine ⟨snapshot, host.pause (waitFor settings snapshot) (host.render snapshot pulled),
                  answered.symm, plays.pause_stays _ shown, rfl, ?_, ?_⟩
                · simp [turn, check, limit, pull, timeless, waitFor]
                · simp [turn, Host.recorded, check, limit, pull, timeless, turnEvents, waitFor]

/-- The whole drive: from the number at which the host stands it renders snapshot
after snapshot, none of them beyond the limit, and ends for a reason.  A host that
writes everything down drives the same way. -/
theorem within_recorded (plays : host.PlaysFrom sequence standsAt) (settings : DriveSettings)
    {turns rendered : Nat} {state final : σ} {outcome : Outcome} (stands : standsAt rendered state)
    (returned : within host settings turns rendered state = some (outcome, final))
    (log : List Event) :
    ∃ snapshots : List Snapshot,
      within host.recorded settings turns rendered (state, log) =
        some (outcome, final, log ++ allEvents settings snapshots outcome) ∧
      snapshots.map some = (List.range' rendered snapshots.length).map sequence ∧
      outcome.rendered = rendered + snapshots.length ∧
      HasReason settings sequence outcome ∧
      ∀ earlier, rendered ≤ earlier → earlier < outcome.rendered →
        atLimit settings earlier = false := by
  induction turns generalizing rendered state log with
  | zero => cases returned
  | succ turns ih =>
      obtain ⟨snapshot, after, numbered, standsAfter, below, plain, noted⟩ |
        ⟨ending, after, reason, plain, noted⟩ := turn_recorded plays settings stands log
      · simp only [within, plain] at returned
        obtain ⟨snapshots, rest, numberedRest, count, reason, belowRest⟩ :=
          ih standsAfter returned (log ++ turnEvents settings snapshot)
        refine ⟨snapshot :: snapshots, ?_, ?_, ?_, reason, ?_⟩
        · simp only [within, noted, rest, allEvents, List.flatMap_cons, List.append_assoc]
        · rw [List.map_cons, numberedRest, List.length_cons, List.range'_succ, List.map_cons,
            numbered]
        · rw [count, List.length_cons]
          omega
        · intro earlier fromHere before
          rcases Nat.eq_or_lt_of_le fromHere with here | later
          · exact here ▸ below
          · exact belowRest earlier later before
      · simp only [within, plain, Option.some.injEq, Prod.mk.injEq] at returned
        obtain ⟨rfl, rfl⟩ := returned
        refine ⟨[], ?_, rfl, rfl, reason, ?_⟩
        · simp only [within, noted]
          simp [allEvents, Host.recorded]
        · intro earlier fromHere before
          exact absurd before (Nat.not_lt.mpr fromHere)

end Turns

/-! ### The events of a whole drive, by their kinds -/

section Kinds

variable (settings : DriveSettings) (snapshots : List Snapshot) (outcome : Outcome)

theorem filterMap_allEvents {α : Type} (kind : Event → Option α) :
    (allEvents settings snapshots outcome).filterMap kind =
      (snapshots.flatMap fun snapshot => (turnEvents settings snapshot).filterMap kind) ++
        (lastEvents outcome.ending).filterMap kind ++ [.finished outcome].filterMap kind := by
  rw [allEvents, List.filterMap_append, List.filterMap_append, List.filterMap_flatMap]

theorem checks_allEvents :
    (allEvents settings snapshots outcome).filterMap check? =
      snapshots.map (fun _ => false) ++ [decide (outcome.ending = .cancelled)] := by
  have each (snapshot : Snapshot) : (turnEvents settings snapshot).filterMap check? = [false] := by
    unfold turnEvents
    split <;> rfl
  have last : (lastEvents outcome.ending).filterMap check? =
      [decide (outcome.ending = .cancelled)] := by
    cases outcome.ending <;> rfl
  rw [filterMap_allEvents, last, List.map_eq_flatMap]
  simp only [each]
  exact List.append_nil _

theorem pulls_allEvents :
    (allEvents settings snapshots outcome).filterMap pull? =
      snapshots.map some ++ if outcome.ending = .completed then [none] else [] := by
  have each (snapshot : Snapshot) :
      (turnEvents settings snapshot).filterMap pull? = [some snapshot] := by
    unfold turnEvents
    split <;> rfl
  have last : (lastEvents outcome.ending).filterMap pull? =
      if outcome.ending = .completed then [none] else [] := by
    cases outcome.ending <;> rfl
  rw [filterMap_allEvents, last, List.map_eq_flatMap]
  simp only [each]
  exact List.append_nil _

theorem renders_allEvents :
    (allEvents settings snapshots outcome).filterMap render? = snapshots := by
  have each (snapshot : Snapshot) :
      (turnEvents settings snapshot).filterMap render? = [snapshot] := by
    unfold turnEvents
    split <;> rfl
  have last : (lastEvents outcome.ending).filterMap render? = [] := by
    cases outcome.ending <;> rfl
  rw [filterMap_allEvents, last]
  simp [each, render?]

theorem pauses_allEvents :
    (allEvents settings snapshots outcome).filterMap pause? =
      (snapshots.map (waitFor settings)).filter fun wait => wait.nanoseconds != 0 := by
  have each (snapshot : Snapshot) :
      (turnEvents settings snapshot).filterMap pause? =
        [waitFor settings snapshot].filter fun wait => wait.nanoseconds != 0 := by
    unfold turnEvents
    split <;> rename_i timeless
    · rw [List.filter_cons_of_neg (by simp [timeless])]
      rfl
    · rw [List.filter_cons_of_pos (by simp [timeless])]
      rfl
  have last : (lastEvents outcome.ending).filterMap pause? = [] := by
    cases outcome.ending <;> rfl
  rw [filterMap_allEvents, last, List.map_eq_flatMap, List.filter_flatMap]
  simp only [each]
  simp [pause?]

theorem outcomes_allEvents :
    (allEvents settings snapshots outcome).filterMap outcome? = [outcome] := by
  have each (snapshot : Snapshot) : (turnEvents settings snapshot).filterMap outcome? = [] := by
    unfold turnEvents
    split <;> rfl
  have last : (lastEvents outcome.ending).filterMap outcome? = [] := by
    cases outcome.ending <;> rfl
  rw [filterMap_allEvents, last]
  simp [each, outcome?]

/-- Behind a check that finds the drive cancelled nothing is pulled any more. -/
theorem allEvents_pulls_before_cancelled :
    (allEvents settings snapshots outcome).Pairwise fun earlier later =>
      earlier = .checked true → later.pull? = none := by
  have calm : ∀ event ∈ snapshots.flatMap (turnEvents settings), event ≠ .checked true := by
    intro event isEvent
    obtain ⟨snapshot, -, here⟩ := List.mem_flatMap.mp isEvent
    rintro rfl
    unfold turnEvents at here
    split at here <;> simp at here
  rw [allEvents, List.append_assoc, List.pairwise_append]
  refine ⟨?_, ?_, ?_⟩
  · exact List.pairwise_of_forall_mem_list fun earlier isEarlier _ _ cancelled =>
      absurd cancelled (calm earlier isEarlier)
  · cases outcome.ending <;> simp [lastEvents, pull?]
  · exact fun earlier isEarlier _ _ cancelled => absurd cancelled (calm earlier isEarlier)

end Kinds

/-- What a drive over a sequence of snapshots has done, by the log of its host, when
it ends with an outcome. -/
structure Conducted (settings : DriveSettings) (sequence : Nat → Option Snapshot)
    (outcome : Outcome) (log : List Event) : Prop where
  /-- As many snapshots as the outcome says were rendered: the first ones of the
  sequence, in its order, once each. -/
  rendered_first : (log.filterMap render?).map some =
    (List.range outcome.rendered).map sequence
  /-- The outcome was reported once. -/
  finished_once : log.filterMap outcome? = [outcome]
  /-- Nothing happened afterwards. -/
  finished_last : log.getLast? = some (.finished outcome)
  /-- The drive has waited for just those rendered snapshots that take time. -/
  paused_as_asked : log.filterMap pause? =
    ((log.filterMap render?).map (waitFor settings)).filter fun wait => wait.nanoseconds != 0
  rendered_le : ∀ limit, settings.maxSteps = some limit → outcome.rendered ≤ limit
  /-- The sequence was pulled once for each rendered snapshot, and once more exactly
  when the drive has completed. -/
  pulled_as_needed : log.filterMap pull? =
    (List.range (outcome.rendered + if outcome.ending = .completed then 1 else 0)).map sequence
  /-- The last check decides whether the drive was cancelled, before the limit and
  before the end of the sequence. -/
  ending_eq : outcome.ending =
    if (log.filterMap check?).getLast? = some true then .cancelled
    else if settings.maxSteps = some outcome.rendered then .limitReached
    else .completed
  /-- A completed drive has rendered the whole sequence. -/
  completed_whole : outcome.ending = .completed → sequence outcome.rendered = none
  /-- Behind a check that finds the drive cancelled nothing is pulled any more. -/
  no_pull_behind : log.Pairwise fun earlier later =>
    earlier = .checked true → later.pull? = none

theorem atLimit_eq_false_iff {settings : DriveSettings} {rendered : Nat} :
    atLimit settings rendered = false ↔
      ∀ limit, settings.maxSteps = some limit → rendered < limit := by
  unfold atLimit
  split <;> simp_all

theorem rendered_le_of_below {settings : DriveSettings} {outcome : Outcome}
    (below : ∀ earlier, earlier < outcome.rendered → atLimit settings earlier = false)
    {limit : Nat} (limited : settings.maxSteps = some limit) : outcome.rendered ≤ limit := by
  cases count : outcome.rendered with
  | zero => exact Nat.zero_le limit
  | succ earlier =>
      rw [count] at below
      exact atLimit_eq_false_iff.mp (below earlier (Nat.lt_succ_self earlier)) limit limited

/-- The reasons for an ending exclude each other in the order in which they are
looked for. -/
theorem ending_eq_of_hasReason {settings : DriveSettings} {sequence : Nat → Option Snapshot}
    {outcome : Outcome} (reason : HasReason settings sequence outcome)
    (below : ∀ earlier, earlier < outcome.rendered → atLimit settings earlier = false) :
    outcome.ending =
      if outcome.ending = .cancelled then .cancelled
      else if settings.maxSteps = some outcome.rendered then .limitReached
      else .completed := by
  unfold HasReason at reason
  split at reason <;> rename_i ended
  · rw [ended, if_pos rfl]
  · rw [ended, if_neg (by decide), if_pos]
    cases limited : settings.maxSteps with
    | none => simp [atLimit, limited] at reason
    | some limit =>
        have most := rendered_le_of_below below limited
        simp only [atLimit, limited, decide_eq_true_eq] at reason
        rw [Nat.le_antisymm most reason]
  · rw [ended, if_neg (by decide), if_neg]
    intro limited
    exact Nat.lt_irrefl _ (atLimit_eq_false_iff.mp reason.1 _ limited)

/-- Whenever a drive returns an outcome, it has done what the outcome says and
nothing else.  The snapshots come from any sequence, finite or endless, the time
unit and the limit are any, and the host may answer as it likes whether the drive is
cancelled. -/
theorem drive_conducted {σ : Type} {host : Host σ} {sequence : Nat → Option Snapshot}
    {standsAt : Nat → σ → Prop} (plays : host.PlaysFrom sequence standsAt)
    (settings : DriveSettings) {turns : Nat} {state final : σ} {outcome : Outcome}
    (fresh : standsAt 0 state)
    (returned : within host settings turns 0 state = some (outcome, final)) :
    ∃ log, within host.recorded settings turns 0 (state, []) = some (outcome, final, log) ∧
      Conducted settings sequence outcome log := by
  obtain ⟨snapshots, noted, numbered, count, reason, below⟩ :=
    within_recorded plays settings fresh returned []
  rw [Nat.zero_add] at count
  rw [← count, ← List.range_eq_range'] at numbered
  have belowLimit : ∀ earlier, earlier < outcome.rendered → atLimit settings earlier = false :=
    fun earlier => below earlier (Nat.zero_le earlier)
  refine ⟨_, noted, ?_⟩
  rw [List.nil_append]
  refine
    { rendered_first := by rw [renders_allEvents, numbered]
      finished_once := outcomes_allEvents settings snapshots outcome
      finished_last := by simp [allEvents]
      paused_as_asked := by rw [renders_allEvents, pauses_allEvents]
      rendered_le := fun _ => rendered_le_of_below belowLimit
      pulled_as_needed := ?_
      ending_eq := ?_
      completed_whole := ?_
      no_pull_behind := allEvents_pulls_before_cancelled settings snapshots outcome }
  · rw [pulls_allEvents, numbered]
    split <;> rename_i completed
    · simp only [HasReason, completed] at reason
      rw [List.range_succ, List.map_append, List.map_singleton, reason.2]
    · rw [Nat.add_zero, List.append_nil]
  · rw [checks_allEvents]
    simpa using ending_eq_of_hasReason reason belowLimit
  · intro completed
    simp only [HasReason, completed] at reason
    exact reason.2

end Drive

namespace Rehearsal

/-- A rehearsal that does not start over plays from the list of its script. -/
theorem host_playsFrom (script : Script) (once : script.cycle = false) :
    (host script).PlaysFrom (fun number => script.snapshots[number]?)
      fun number notes => notes.remaining = script.snapshots.drop number where
  pull_eq := by
    intro number notes stands
    simp only [host, pull, once, Bool.and_false, Bool.false_eq_true, if_false, stands]
    cases rest : script.snapshots.drop number with
    | nil => simp [List.drop_eq_nil_iff.mp rest]
    | cons snapshot others => rw [← List.head?_drop, rest, List.head?_cons]
  pull_moves := by
    intro number notes snapshot stands numbered
    have rest := List.drop_eq_getElem_cons (List.getElem?_eq_some_iff.mp numbered).1
    simp only [host, pull, once, Bool.and_false, Bool.false_eq_true, if_false, stands, rest]
  isCancelled_stays := fun stands => stands
  render_stays := fun _ stands => stands
  pause_stays := by
    intro number notes wait stands
    simp only [host, pause]
    split
    · exact stands
    · exact stands
    · split <;> exact stands

/-- Three snapshots, of which the second sleeps for ten units and is cancelled in
that sleep. -/
def interruptedSleep : Script where
  snapshots := [.capture "0" .seeded none, .capture "0" .seeded (some 10), .capture "1" .seeded none]
  cancelAtPause := some 1

/-- The drive is cancelled with two snapshots rendered and the third one not even
pulled, although the limit is reached as well. -/
theorem interruptedSleep_conducted :
    ∃ final log, Drive.within (host interruptedSleep) { maxSteps := some 2 } 3 0
        (start interruptedSleep false) = some (⟨.cancelled, 2⟩, final) ∧
      Drive.Conducted { maxSteps := some 2 } (fun number => interruptedSleep.snapshots[number]?)
        ⟨.cancelled, 2⟩ log := by
  have ended : (Drive.within (host interruptedSleep) { maxSteps := some 2 } 3 0
      (start interruptedSleep false)).map Prod.fst = some ⟨.cancelled, 2⟩ := by
    decide +kernel
  obtain ⟨⟨outcome, final⟩, returned, rfl⟩ := Option.map_eq_some_iff.mp ended
  obtain ⟨log, -, conducted⟩ := Drive.drive_conducted (host_playsFrom interruptedSleep rfl)
    { maxSteps := some 2 } rfl returned
  exact ⟨final, log, returned, conducted⟩

end Rehearsal

end BlockStage

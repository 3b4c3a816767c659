import BlockStage.Proofs.RunDisplay
import BlockStage.Proofs.RunFrames
import BlockStage.Proofs.UnpacedDrive

/-!
# A closed output stops the run

A terminal that cannot write a line cancels the drive, and the drive looks for that before it
looks for its limit and before it pulls the next snapshot.  So the snapshot whose line was
refused is the last one, even if it is also the last of the run or of the limit, and the
statement it shows never takes effect.  An output that is closed from some write on therefore
ends every drive, also that of an endless run.  As long as no line is refused, the drive goes
its way as on an output that takes everything.

The output is any device with a state of its own.  What it does with a text is left open, but
for the answer whether it took the whole of it.
-/

namespace BlockStage

namespace Drive

variable {σ : Type} {host : Host σ} {settings : DriveSettings} {rendered : Nat} {state : σ}

/-- A drive that has ended takes no further turn. -/
theorem within_of_le {turns more : Nat} {ended : Outcome × σ} (enough : turns ≤ more)
    (returned : within host settings turns rendered state = some ended) :
    within host settings more rendered state = some ended := by
  induction turns generalizing more rendered state with
  | zero => cases returned
  | succ turns ih =>
      obtain ⟨more, rfl⟩ : ∃ fewer, more = fewer + 1 := ⟨more - 1, by omega⟩
      cases turned : turn host settings rendered state with
      | inl standing =>
          simp only [within, turned] at returned ⊢
          exact ih (by omega) returned
      | inr last => simpa only [within, turned] using returned

theorem within_unique {first second : Nat} {one other : Outcome × σ}
    (returned : within host settings first rendered state = some one)
    (again : within host settings second rendered state = some other) : one = other := by
  have sooner := within_of_le (Nat.le_max_left first second) returned
  have later := within_of_le (Nat.le_max_right first second) again
  exact Option.some.inj (sooner.symm.trans later)

end Drive

namespace Terminal

open Event (pull? render?)

variable {ω π : Type}

/-- The texts that show a row of snapshots: each line, and its line break. -/
def pieces (format : SnapshotFormat) (snapshots : List Snapshot) : List String :=
  snapshots.flatMap fun snapshot => [format.line snapshot, "\n"]

namespace Devices

/-- The output when a row of texts was given to it. -/
def outputBehind (devices : Devices ω π) (texts : List String) (output : ω) : ω :=
  texts.foldl (fun output text => (devices.write text output).2) output

/-- The output when the lines of a row of snapshots were given to it. -/
def outputBehindLines (devices : Devices ω π) (format : SnapshotFormat)
    (snapshots : List Snapshot) (output : ω) : ω :=
  snapshots.foldl (fun output snapshot => (devices.writeLine (format.line snapshot) output).2)
    output

/-- Of the texts that show a run, the output refuses all from some number on. -/
def ClosesFrom (devices : Devices ω π) (format : SnapshotFormat) (program : Program) (output : ω)
    (writes : Nat) : Prop :=
  ∀ count texts text, texts ++ [text] <+: pieces format ((Run.start false).shown program count) →
    writes ≤ texts.length → (devices.write text (devices.outputBehind texts output)).1 = false

/-- Whether the line of a snapshot is taken in full behind the first lines of a run. -/
def takes (devices : Devices ω π) (format : SnapshotFormat) (program : Program) (output : ω)
    (count : Nat) (snapshot : Snapshot) : Bool :=
  (devices.writeLine (format.line snapshot)
    (devices.outputBehindLines format ((Run.start false).shown program count) output)).1

/-- Nothing but the output cancels the drive. -/
def Calm (devices : Devices ω π) : Prop :=
  ∀ span pacer, (devices.wait span pacer).1 = false

def withOutput {ω' : Type} (devices : Devices ω π) (write : String → ω' → Bool × ω') :
    Devices ω' π where
  write := write
  wait := devices.wait

end Devices

/-- The first snapshots of a run exist and their lines were taken in full. -/
def TakesAll (devices : Devices ω π) (format : SnapshotFormat) (program : Program) (output : ω)
    (count : Nat) : Prop :=
  ∀ earlier < count, ∃ snapshot, (Run.start false).result program earlier = some snapshot ∧
    devices.takes format program output earlier snapshot = true

/-- A run that has not been started, on an output that has not refused anything. -/
def fresh (output : ω) (pacer : π) : Show ω π where
  run := .start false
  output := output
  pacer := pacer
  cancelled := false

/-! ### Lines -/

section Lines

variable {devices : Devices ω π} {format : SnapshotFormat} {program : Program} {output : ω}
variable {count : Nat}

theorem outputBehind_append (first second : List String) :
    devices.outputBehind (first ++ second) output =
      devices.outputBehind second (devices.outputBehind first output) :=
  List.foldl_append

theorem writeLine_of_refused {line : String} (refused : (devices.write line output).1 = false) :
    (devices.writeLine line output).1 = false := by
  cases answer : devices.write line output with
  | mk taken after =>
      rw [answer] at refused
      obtain rfl : taken = false := refused
      simp only [Devices.writeLine, answer]

theorem writeLine_of_taken {line : String} (taken : (devices.writeLine line output).1 = true) :
    (devices.writeLine line output).2 = devices.outputBehind [line, "\n"] output := by
  cases answer : devices.write line output with
  | mk whole after =>
      simp only [Devices.writeLine, answer] at taken ⊢
      cases whole with
      | true => simp only [Devices.outputBehind, List.foldl_cons, List.foldl_nil, answer]
      | false => cases taken

theorem outputBehindLines_concat (snapshots : List Snapshot) (snapshot : Snapshot) :
    devices.outputBehindLines format (snapshots ++ [snapshot]) output =
      (devices.writeLine (format.line snapshot)
        (devices.outputBehindLines format snapshots output)).2 := by
  simp [Devices.outputBehindLines]

theorem shown_succ_of_result {snapshot : Snapshot}
    (shown : (Run.start false).result program count = some snapshot) :
    (Run.start false).shown program (count + 1) =
      (Run.start false).shown program count ++ [snapshot] := by
  rw [Run.shown_succ, shown, Option.toList_some]

theorem TakesAll.before (takesAll : TakesAll devices format program output (count + 1)) :
    TakesAll devices format program output count :=
  fun earlier before => takesAll earlier (Nat.lt_succ_of_lt before)

/-- Lines that are taken are given to the output text by text. -/
theorem TakesAll.outputBehindLines_eq (takesAll : TakesAll devices format program output count) :
    devices.outputBehindLines format ((Run.start false).shown program count) output =
      devices.outputBehind (pieces format ((Run.start false).shown program count)) output := by
  induction count with
  | zero => rfl
  | succ count ih =>
      obtain ⟨snapshot, shown, taken⟩ := takesAll count (Nat.lt_succ_self count)
      rw [shown_succ_of_result shown, outputBehindLines_concat, writeLine_of_taken taken,
        ih takesAll.before, ← outputBehind_append]
      simp [pieces]

theorem TakesAll.count_le (takesAll : TakesAll devices format program output count) :
    count ≤ (pieces format ((Run.start false).shown program count)).length := by
  induction count with
  | zero => exact Nat.zero_le _
  | succ count ih =>
      obtain ⟨snapshot, shown, -⟩ := takesAll count (Nat.lt_succ_self count)
      have few := ih takesAll.before
      simp only [pieces] at few ⊢
      rw [shown_succ_of_result shown, List.flatMap_append, List.length_append]
      simp only [List.flatMap_cons, List.flatMap_nil, List.append_nil, List.length_cons,
        List.length_nil]
      omega

/-- An output that closes takes only so many lines. -/
theorem TakesAll.refuses {writes : Nat} (takesAll : TakesAll devices format program output count)
    (closes : devices.ClosesFrom format program output writes) (enough : writes ≤ count)
    {snapshot : Snapshot} (shown : (Run.start false).result program count = some snapshot) :
    devices.takes format program output count snapshot = false := by
  apply writeLine_of_refused
  rw [takesAll.outputBehindLines_eq]
  apply closes (count + 1)
  · rw [shown_succ_of_result shown]
    exact ⟨["\n"], by simp [pieces]⟩
  · exact Nat.le_trans enough takesAll.count_le

end Lines

/-! ### Turns of the drive -/

section Turns

variable {devices : Devices ω π} {format : SnapshotFormat} {program : Program}
variable {settings : DriveSettings} {output : ω} {count : Nat} {state : Show ω π}

structure HasShown (devices : Devices ω π) (format : SnapshotFormat) (program : Program)
    (output : ω) (count : Nat) (state : Show ω π) : Prop where
  run_eq : state.run = (Run.start false).after program count
  output_eq : state.output =
    devices.outputBehindLines format ((Run.start false).shown program count) output

def endingAt (settings : DriveSettings) (count : Nat) : Ending :=
  if Drive.atLimit settings count = true then .limitReached else .completed

/-- A turn that shows a snapshot cancels the drive exactly if the line is refused, unless somebody
asks to stop. -/
theorem turn_of_result (hasShown : HasShown devices format program output count state)
    (going : state.cancelled = false) (below : Drive.atLimit settings count = false)
    {snapshot : Snapshot} (shown : (Run.start false).result program count = some snapshot) :
    ∃ next, Drive.turn (host program format devices) settings count state =
        .inl (count + 1, next) ∧
      HasShown devices format program output (count + 1) next ∧
      (devices.Calm → next.cancelled = !devices.takes format program output count snapshot) := by
  obtain ⟨run_eq, output_eq⟩ := hasShown
  have stepped : state.run.step program =
      (some snapshot, (Run.start false).after program (count + 1)) := by
    rw [run_eq, ← shown]
    rfl
  have written : devices.writeLine (format.line snapshot) state.output =
      (devices.takes format program output count snapshot,
        devices.outputBehindLines format ((Run.start false).shown program (count + 1)) output) := by
    rw [shown_succ_of_result shown, outputBehindLines_concat, output_eq]
    rfl
  simp only [Drive.turn, host, going, below, stepped, written, Bool.false_eq_true, if_false,
    Bool.false_or]
  refine ⟨_, rfl, ?_⟩
  split
  · exact ⟨⟨rfl, rfl⟩, fun _ => rfl⟩
  · refine ⟨⟨rfl, rfl⟩, fun calm => ?_⟩
    simp only [calm _ _, Bool.or_false]

theorem turn_of_end (hasShown : HasShown devices format program output count state)
    (going : state.cancelled = false)
    (ends : Drive.atLimit settings count = true ∨ (Run.start false).result program count = none) :
    ∃ final, Drive.turn (host program format devices) settings count state =
      .inr (⟨endingAt settings count, count⟩, final) ∧ final.output = state.output := by
  by_cases limited : Drive.atLimit settings count = true
  · refine ⟨state, ?_, rfl⟩
    simp only [Drive.turn, host, going, endingAt, limited, Bool.false_eq_true, if_false, if_true]
  · have ended : (state.run.step program).1 = none := by
      rw [hasShown.run_eq]
      exact ends.resolve_left limited
    have stepped : state.run.step program = (none, (state.run.step program).2) :=
      Prod.ext ended rfl
    refine ⟨{ state with run := (state.run.step program).2 }, ?_, rfl⟩
    simp only [Drive.turn, host, going, endingAt, limited, Bool.false_eq_true, if_false]
    rw [stepped]

/-- A cancelled drive ends with its next turn, whatever the limit and the run. -/
theorem turn_of_cancelled (cancelled : state.cancelled = true) :
    Drive.turn (host program format devices) settings count state =
      .inr (⟨.cancelled, count⟩, state) := by
  simp only [Drive.turn, host, cancelled, if_true]

/-- Lines that are taken below the limit are shown in one turn each. -/
theorem within_of_takesAll (calm : devices.Calm) (pacer : π)
    (takesAll : TakesAll devices format program output count)
    (below : ∀ earlier < count, Drive.atLimit settings earlier = false) :
    ∃ state, HasShown devices format program output count state ∧ state.cancelled = false ∧
      ∀ turns, Drive.within (host program format devices) settings (count + turns) 0
        (fresh output pacer) =
          Drive.within (host program format devices) settings turns count state := by
  induction count with
  | zero =>
      refine ⟨fresh output pacer, ⟨rfl, rfl⟩, rfl, ?_⟩
      intro turns
      rw [Nat.zero_add]
  | succ count ih =>
      obtain ⟨state, hasShown, going, same⟩ :=
        ih takesAll.before fun earlier before => below earlier (Nat.lt_succ_of_lt before)
      obtain ⟨snapshot, shown, taken⟩ := takesAll count (Nat.lt_succ_self count)
      obtain ⟨next, turned, nextShown, cancelled⟩ :=
        turn_of_result hasShown going (below count (Nat.lt_succ_self count)) shown
      refine ⟨next, nextShown, by rw [cancelled calm, taken]; rfl, ?_⟩
      intro turns
      rw [Nat.add_assoc, Nat.add_comm 1 turns, same]
      simp only [Drive.within, turned]

theorem within_of_end (calm : devices.Calm) (pacer : π)
    (takesAll : TakesAll devices format program output count)
    (below : ∀ earlier < count, Drive.atLimit settings earlier = false)
    (ends : Drive.atLimit settings count = true ∨ (Run.start false).result program count = none) :
    ∃ final, Drive.within (host program format devices) settings (count + 1) 0
      (fresh output pacer) = some (⟨endingAt settings count, count⟩, final) := by
  obtain ⟨state, hasShown, going, same⟩ := within_of_takesAll calm pacer takesAll below
  obtain ⟨final, turned, -⟩ := turn_of_end hasShown going ends
  refine ⟨final, ?_⟩
  rw [same]
  simp only [Drive.within, turned]
  rfl

/-- The turn behind a refused line ends the drive. -/
theorem within_of_refused (calm : devices.Calm) (pacer : π)
    (takesAll : TakesAll devices format program output count)
    (below : ∀ earlier ≤ count, Drive.atLimit settings earlier = false) {snapshot : Snapshot}
    (shown : (Run.start false).result program count = some snapshot)
    (refused : devices.takes format program output count snapshot = false) :
    ∃ final, Drive.within (host program format devices) settings (count + 2) 0
        (fresh output pacer) = some (⟨.cancelled, count + 1⟩, final) ∧
      HasShown devices format program output (count + 1) final := by
  obtain ⟨state, hasShown, going, same⟩ := within_of_takesAll calm pacer takesAll
    fun earlier before => below earlier (Nat.le_of_lt before)
  obtain ⟨final, turned, finalShown, cancelled⟩ :=
    turn_of_result hasShown going (below count (Nat.le_refl count)) shown
  have stopped := cancelled calm
  rw [refused] at stopped
  refine ⟨final, ?_, finalShown⟩
  rw [same]
  simp only [Drive.within, turned, turn_of_cancelled stopped]
  rfl

/-- A drive does not get past this number of snapshots. -/
def Blocks (devices : Devices ω π) (format : SnapshotFormat) (program : Program)
    (settings : DriveSettings) (output : ω) (number : Nat) : Prop :=
  Drive.atLimit settings number = true ∨ ∀ snapshot,
    (Run.start false).result program number = some snapshot →
      devices.takes format program output number snapshot = false

theorem passes_of_not_blocks {number : Nat}
    (passed : ¬ Blocks devices format program settings output number) :
    Drive.atLimit settings number = false ∧ ∃ snapshot,
      (Run.start false).result program number = some snapshot ∧
        devices.takes format program output number snapshot = true := by
  simpa [Blocks] using passed

/-- On an output that closes, every drive gets only so far. -/
theorem exists_first_block {writes : Nat}
    (closes : devices.ClosesFrom format program output writes) (settings : DriveSettings) :
    ∃ count, TakesAll devices format program output count ∧
      (∀ earlier < count, Drive.atLimit settings earlier = false) ∧
      Blocks devices format program settings output count := by
  classical
  have blocked : ∃ number, Blocks devices format program settings output number := by
    by_contra free
    have passes := fun number => passes_of_not_blocks (not_exists.mp free number)
    have takesAll : TakesAll devices format program output writes :=
      fun earlier _ => (passes earlier).2
    obtain ⟨-, snapshot, shown, taken⟩ := passes writes
    rw [takesAll.refuses closes (Nat.le_refl writes) shown] at taken
    cases taken
  have passes {earlier : Nat} (before : earlier < Nat.find blocked) :=
    passes_of_not_blocks (Nat.find_min blocked before)
  exact ⟨Nat.find blocked, fun earlier before => (passes before).2,
    fun earlier before => (passes before).1, Nat.find_spec blocked⟩

end Turns

theorem takesAll_of_patient {devices : Devices ω π} {format : SnapshotFormat} {program : Program}
    {output : ω} {count : Nat}
    (patient : ∀ text output, (devices.write text output).1 = true)
    (shows : ∀ earlier < count, ∃ snapshot,
      (Run.start false).result program earlier = some snapshot) :
    TakesAll devices format program output count := by
  intro earlier before
  obtain ⟨snapshot, shown⟩ := shows earlier before
  refine ⟨snapshot, shown, ?_⟩
  have line (text : String) (output : ω) : (devices.writeLine text output).1 = true := by
    simp only [Devices.writeLine]
    split
    · exact patient _ _
    · rename_i refusal
      have taken := patient text output
      rw [refusal] at taken
      cases taken
  exact line _ _

/-- A drive ended because the output refused the line of a snapshot. -/
structure StoppedAt (devices : Devices ω π) (format : SnapshotFormat) (program : Program)
    (output : ω) (count : Nat) (snapshot : Snapshot) (outcome : Outcome) (final : Show ω π)
    (log : List Event) : Prop where
  shown : (Run.start false).result program count = some snapshot
  taken : TakesAll devices format program output count
  refused : devices.takes format program output count snapshot = false
  outcome_eq : outcome = ⟨.cancelled, count + 1⟩
  -- no snapshot behind the refused one is asked for
  pulled : log.filterMap pull? = (List.range (count + 1)).map ((Run.start false).result program)
  rendered : (log.filterMap render?).map some =
    (List.range (count + 1)).map ((Run.start false).result program)
  -- the statement of the snapshot is still to take effect
  run_eq : final.run = (Run.start false).after program (count + 1)
  standsAt : Run.StandsAt program final.run snapshot
  output_eq : final.output = (devices.writeLine (format.line snapshot)
    (devices.outputBehind (pieces format ((Run.start false).shown program count)) output)).2

/-- A drive ended although the output took every line: it ends so on any output that takes
every text. -/
structure EndedUnhindered (devices : Devices ω π) (format : SnapshotFormat) (program : Program)
    (settings : DriveSettings) (output : ω) (pacer : π) (outcome : Outcome) : Prop where
  taken : TakesAll devices format program output outcome.rendered
  uncancelled : outcome.ending ≠ .cancelled
  alike : ∀ {ω' : Type} (write : String → ω' → Bool × ω') (other : ω'),
    (∀ text output, (write text output).1 = true) →
      ∃ turns final, Drive.within (host program format (devices.withOutput write)) settings turns 0
        (fresh other pacer) = some (outcome, final)

section Endings

variable {devices : Devices ω π} {format : SnapshotFormat} {program : Program}
variable {settings : DriveSettings} {output : ω} {count : Nat}

theorem exists_stoppedAt (calm : devices.Calm) (pacer : π)
    (takesAll : TakesAll devices format program output count)
    (below : ∀ earlier ≤ count, Drive.atLimit settings earlier = false) {snapshot : Snapshot}
    (shown : (Run.start false).result program count = some snapshot)
    (refused : devices.takes format program output count snapshot = false) :
    ∃ outcome final log, Drive.within (host program format devices).recorded settings (count + 2) 0
        (fresh output pacer, []) = some (outcome, final, log) ∧
      StoppedAt devices format program output count snapshot outcome final log := by
  obtain ⟨final, returned, finalShown⟩ :=
    within_of_refused calm pacer takesAll below shown refused
  obtain ⟨snapshots, recorded, numbered, rendered, -, -⟩ :=
    Drive.within_recorded (host_playsFrom program format devices) settings rfl returned []
  have length : snapshots.length = count + 1 := by simpa using rendered.symm
  rw [length, ← List.range_eq_range'] at numbered
  refine ⟨_, final, _, recorded, ?_⟩
  have stands : Run.StandsAt program final.run snapshot := by
    rw [finalShown.run_eq]
    exact (Run.step_standsAt (Run.owners_after program false count)).2 snapshot shown
  refine ⟨shown, takesAll, refused, rfl, ?_, ?_, finalShown.run_eq, stands, ?_⟩
  · have incomplete : Ending.cancelled ≠ .completed := by decide
    rw [List.nil_append, Drive.pulls_allEvents, if_neg incomplete, List.append_nil, numbered]
  · rw [List.nil_append, Drive.renders_allEvents, numbered]
  · rw [finalShown.output_eq, shown_succ_of_result shown, outputBehindLines_concat,
      takesAll.outputBehindLines_eq]

theorem exists_endedUnhindered (calm : devices.Calm) (pacer : π)
    (takesAll : TakesAll devices format program output count)
    (below : ∀ earlier < count, Drive.atLimit settings earlier = false)
    (ends : Drive.atLimit settings count = true ∨ (Run.start false).result program count = none) :
    ∃ outcome final log, Drive.within (host program format devices).recorded settings (count + 1) 0
        (fresh output pacer, []) = some (outcome, final, log) ∧
      EndedUnhindered devices format program settings output pacer outcome := by
  obtain ⟨final, returned⟩ := within_of_end calm pacer takesAll below ends
  obtain ⟨snapshots, recorded, -⟩ :=
    Drive.within_recorded (host_playsFrom program format devices) settings rfl returned []
  refine ⟨_, final, _, recorded, takesAll, ?_, ?_⟩
  · simp only [endingAt]
    split <;> simp
  · intro ω' write other patient
    have calmToo : (devices.withOutput write).Calm := calm
    have patientTakes : TakesAll (devices.withOutput write) format program other count :=
      takesAll_of_patient patient fun earlier before =>
        (takesAll earlier before).imp fun _ shown => shown.1
    exact ⟨count + 1, within_of_end calmToo pacer patientTakes below ends⟩

end Endings

/-- On an output that is closed from some write on, every drive that nobody else cancels ends.
If a line is refused, the first such snapshot is the last one pulled and rendered, the drive is
cancelled behind it, wherever it stands, and its statement takes no effect.  If no line is
refused, the outcome is that of a drive onto an output that takes every text. -/
theorem closed_output_stops_drive (program : Program) (format : SnapshotFormat)
    (devices : Devices ω π) (settings : DriveSettings) (output : ω) (pacer : π)
    (calm : devices.Calm) {writes : Nat}
    (closes : devices.ClosesFrom format program output writes) :
    let drive turns := Drive.within (host program format devices).recorded settings turns 0
      (fresh output pacer, [])
    (∃ turns, (drive turns).isSome) ∧
      ∀ turns outcome final log, drive turns = some (outcome, final, log) →
        (∃ count snapshot,
          StoppedAt devices format program output count snapshot outcome final log) ∨
        EndedUnhindered devices format program settings output pacer outcome := by
  intro drive
  obtain ⟨enough, outcome, final, log, returned, ended⟩ : ∃ enough outcome final log,
      drive enough = some (outcome, final, log) ∧
        ((∃ count snapshot,
          StoppedAt devices format program output count snapshot outcome final log) ∨
        EndedUnhindered devices format program settings output pacer outcome) := by
    obtain ⟨count, takesAll, below, blocks⟩ := exists_first_block closes settings
    by_cases ends : Drive.atLimit settings count = true ∨
        (Run.start false).result program count = none
    · obtain ⟨outcome, final, log, returned, ended⟩ :=
        exists_endedUnhindered calm pacer takesAll below ends
      exact ⟨_, outcome, final, log, returned, .inr ended⟩
    · obtain ⟨free, shows⟩ := not_or.mp ends
      obtain ⟨snapshot, shown⟩ := Option.ne_none_iff_exists'.mp shows
      have belowToo : ∀ earlier ≤ count, Drive.atLimit settings earlier = false := by
        intro earlier upTo
        rcases Nat.eq_or_lt_of_le upTo with rfl | before
        · exact Bool.eq_false_of_not_eq_true free
        · exact below earlier before
      obtain ⟨outcome, final, log, returned, stopped⟩ := exists_stoppedAt calm pacer takesAll
        belowToo shown (blocks.resolve_left free snapshot shown)
      exact ⟨_, outcome, final, log, returned, .inl ⟨count, snapshot, stopped⟩⟩
  refine ⟨⟨enough, by rw [returned]; rfl⟩, ?_⟩
  intro turns outcome' final' log' returned'
  obtain ⟨rfl, rfl, rfl⟩ : outcome = outcome' ∧ final = final' ∧ log = log' := by
    simpa using Drive.within_unique returned returned'
  exact ended

/-! ### The terminal's own output -/

section Paper

variable {format : SnapshotFormat} {program : Program}

def paperDevices : Devices Paper Unit where
  write := Paper.write
  wait _ pacer := (false, pacer)

theorem linesLeft_outputBehind (texts : List String) {paper : Paper} {lines : Nat}
    (left : paper.linesLeft = some lines) :
    (paperDevices.outputBehind texts paper).linesLeft =
      some (lines - (texts.map lineBreaks).sum) := by
  induction texts generalizing paper lines with
  | nil => exact left
  | cons text texts ih =>
      have step : (paper.write text).2.linesLeft = some (lines - lineBreaks text) := by
        cases lines with
        | zero => simp only [Paper.write, left, Nat.zero_sub]
        | succ lines => simp only [Paper.write, left, Option.map_some]
      have rest := ih step
      rw [List.map_cons, List.sum_cons, ← Nat.sub_sub]
      exact rest

/-- Every second text of a run brings a line break. -/
theorem le_lineBreaks_of_isPrefix {snapshots : List Snapshot} {texts : List String} {lines : Nat}
    (isPrefix : texts <+: pieces format snapshots) (enough : 2 * lines ≤ texts.length) :
    lines ≤ (texts.map lineBreaks).sum := by
  induction lines generalizing snapshots texts with
  | zero => exact Nat.zero_le _
  | succ lines ih =>
      cases snapshots with
      | nil =>
          rw [List.prefix_nil.mp isPrefix] at enough
          exact absurd enough (by simp)
      | cons snapshot snapshots =>
          change texts <+: format.line snapshot :: "\n" :: pieces format snapshots at isPrefix
          rcases texts with _ | ⟨line, _ | ⟨lineBreak, texts⟩⟩
          · exact absurd enough (by simp)
          · simp only [List.length_cons, List.length_nil] at enough
            omega
          · obtain ⟨-, behindLine⟩ := List.cons_prefix_cons.mp isPrefix
            obtain ⟨rfl, behindBreak⟩ := List.cons_prefix_cons.mp behindLine
            simp only [List.length_cons] at enough
            have rest := ih behindBreak (by omega)
            have broken : lineBreaks "\n" = 1 := by decide
            simp only [List.map_cons, List.sum_cons, broken]
            omega

/-- Paper with so many lines left is closed from the write behind their last line break on. -/
theorem paperDevices_closesFrom (format : SnapshotFormat) (program : Program) {paper : Paper}
    {lines : Nat} (left : paper.linesLeft = some lines) :
    paperDevices.ClosesFrom format program paper (2 * lines) := by
  intro count texts text isPrefix enough
  have broken := le_lineBreaks_of_isPrefix ((List.prefix_append texts [text]).trans isPrefix) enough
  have closed : (paperDevices.outputBehind texts paper).linesLeft = some 0 := by
    rw [linesLeft_outputBehind texts left, Nat.sub_eq_zero_of_le broken]
  change ((paperDevices.outputBehind texts paper).write text).1 = false
  simp only [Paper.write, closed]

end Paper

/-- Sets a variable over and over. -/
def endlessAssignment : Program where
  statements := Arena.ofEntries [("0", .loop "0" "1"), ("1", .assign "x" "1")]
  expressions := Arena.ofEntries [("0", .constant 1), ("1", .constant 5)]
  lists := Arena.ofEntries [(entryList, ["0"]), ("1", ["1"])]
  statementCount := 2
  expressionCount := 2
  listCount := 2

/-- Paper with one line cancels the drive at its second snapshot, which is also the last one
within the limit, and the variable keeps its value. -/
theorem endlessAssignment_stops :
    paperDevices.Calm ∧
      paperDevices.ClosesFrom .text endlessAssignment { linesLeft := some 1 } (2 * 1) ∧
      ∃ final log snapshot,
        Drive.within (host endlessAssignment .text paperDevices).recorded
          { maxSteps := some 2 } 3 0 (fresh { linesLeft := some 1 } (), []) =
            some (⟨.cancelled, 2⟩, final, log) ∧
        StoppedAt paperDevices .text endlessAssignment { linesLeft := some 1 } 1 snapshot
          ⟨.cancelled, 2⟩ final log ∧
        final.run.pending = some "1" ∧ final.run.bindings.get? "x" = some 0 := by
  have calm : paperDevices.Calm := fun _ _ => rfl
  have closes : paperDevices.ClosesFrom .text endlessAssignment { linesLeft := some 1 } (2 * 1) :=
    paperDevices_closesFrom .text endlessAssignment rfl
  refine ⟨calm, closes, ?_⟩
  have outcome : (Drive.within (host endlessAssignment .text paperDevices).recorded
      { maxSteps := some 2 } 3 0 (fresh { linesLeft := some 1 } (), [])).map
        (fun ended => (ended.1, ended.2.1.run.pending, ended.2.1.run.bindings.get? "x")) =
      some (⟨.cancelled, 2⟩, some "1", some 0) := by
    decide +kernel
  obtain ⟨⟨outcome, final, log⟩, returned, ended⟩ := Option.map_eq_some_iff.mp outcome
  obtain ⟨rfl, pending, unset⟩ : outcome = ⟨.cancelled, 2⟩ ∧ final.run.pending = some "1" ∧
      final.run.bindings.get? "x" = some 0 := by
    simpa using ended
  obtain ⟨-, dichotomy⟩ := closed_output_stops_drive endlessAssignment .text paperDevices
    { maxSteps := some 2 } { linesLeft := some 1 } () calm closes
  rcases dichotomy 3 _ final log returned with ⟨count, snapshot, stopped⟩ | unhindered
  · obtain rfl : count = 1 := by simpa using stopped.outcome_eq.symm
    exact ⟨final, log, snapshot, returned, stopped, pending, unset⟩
  · exact absurd rfl unhindered.uncancelled

end Terminal

end BlockStage

import BlockStage.Proofs.ClosedOutput

/-!
# The lines on a terminal

Whatever ends a drive onto a terminal, the snapshots it counts as rendered are the first ones of
the run, and their lines were given to the output in this order.  An output that is never closed
keeps all of them.  If no line has a line break of its own, there are as many line breaks in the
output as there are rendered snapshots.
-/

namespace BlockStage

namespace Terminal

section Turns

variable {ω π : Type} {devices : Devices ω π} {format : SnapshotFormat} {program : Program}
variable {settings : DriveSettings} {output : ω} {count : Nat} {state : Show ω π}

/-- A turn ends the drive and writes nothing, or it shows one more snapshot, whoever cancels. -/
theorem HasShown.turn_cases (hasShown : HasShown devices format program output count state)
    (settings : DriveSettings) :
    (∃ ending final, Drive.turn (host program format devices) settings count state =
        .inr (⟨ending, count⟩, final) ∧ final.output = state.output) ∨
      ∃ next snapshot, Drive.turn (host program format devices) settings count state =
          .inl (count + 1, next) ∧
        (Run.start false).result program count = some snapshot ∧
        HasShown devices format program output (count + 1) next := by
  cases going : state.cancelled with
  | true => exact Or.inl ⟨.cancelled, state, turn_of_cancelled going, rfl⟩
  | false =>
      by_cases ends : Drive.atLimit settings count = true ∨
          (Run.start false).result program count = none
      · obtain ⟨final, turned, output_eq⟩ := turn_of_end hasShown going ends
        exact Or.inl ⟨_, final, turned, output_eq⟩
      · obtain ⟨below, shows⟩ := not_or.mp ends
        obtain ⟨snapshot, shown⟩ := Option.ne_none_iff_exists'.mp shows
        obtain ⟨next, turned, nextShown, -⟩ :=
          turn_of_result hasShown going (Bool.eq_false_of_not_eq_true below) shown
        exact Or.inr ⟨next, snapshot, turned, shown, nextShown⟩

/-- The rendered snapshots are the first ones of the run, and their lines are the output. -/
theorem HasShown.within {turns : Nat} {outcome : Outcome} {final : Show ω π}
    (hasShown : HasShown devices format program output count state)
    (length_eq : ((Run.start false).shown program count).length = count)
    (returned : Drive.within (host program format devices) settings turns count state =
      some (outcome, final)) :
    ((Run.start false).shown program outcome.rendered).length = outcome.rendered ∧
      final.output = devices.outputBehindLines format
        ((Run.start false).shown program outcome.rendered) output := by
  -- the snapshots shown so far are as many as the drive has counted
  induction turns generalizing count state with
  | zero => cases returned
  | succ turns ih =>
      rcases hasShown.turn_cases settings with
        ⟨ending, last, turned, output_eq⟩ | ⟨next, snapshot, turned, shown, nextShown⟩
      · simp only [Drive.within, turned, Option.some.injEq, Prod.mk.injEq] at returned
        obtain ⟨rfl, rfl⟩ := returned
        exact ⟨length_eq, output_eq.trans hasShown.output_eq⟩
      · simp only [Drive.within, turned] at returned
        refine ih nextShown ?_ returned
        rw [shown_succ_of_result shown, List.length_append, length_eq]
        rfl

end Turns

/-! ### An output that is never closed -/

section Paper

variable {π : Type} {format : SnapshotFormat}

/-- The lines of a row of snapshots, each with its line break. -/
def linesText (format : SnapshotFormat) (snapshots : List Snapshot) : String :=
  String.join (pieces format snapshots)

theorem linesText_cons (snapshot : Snapshot) (snapshots : List Snapshot) :
    linesText format (snapshot :: snapshots) =
      format.line snapshot ++ "\n" ++ linesText format snapshots := by
  simp [linesText, pieces, String.append_assoc]

theorem outputBehindLines_paper (wait : Span → π → Bool × π) (snapshots : List Snapshot)
    (written : String) :
    Devices.outputBehindLines ⟨Paper.write, wait⟩ format snapshots { written } =
      { written := written ++ linesText format snapshots } := by
  induction snapshots generalizing written with
  | nil => simp [Devices.outputBehindLines, linesText, pieces]
  | cons snapshot snapshots ih =>
      have later := ih (written ++ format.line snapshot ++ "\n")
      rw [linesText_cons, ← String.append_assoc, ← String.append_assoc]
      exact later

theorem lineBreaks_append (first second : String) :
    lineBreaks (first ++ second) = lineBreaks first + lineBreaks second := by
  simp [lineBreaks]

theorem lineBreaks_eq_zero_iff (text : String) : lineBreaks text = 0 ↔ '\n' ∉ text.toList :=
  List.count_eq_zero

theorem lineBreaks_join_eq_zero_iff (texts : List String) :
    lineBreaks (String.join texts) = 0 ↔ ∀ text ∈ texts, '\n' ∉ text.toList := by
  simp [lineBreaks_eq_zero_iff]

/-- Every line ends with a line break, and those inside of lines come on top. -/
theorem lineBreaks_linesText_eq (format : SnapshotFormat) (snapshots : List Snapshot) :
    lineBreaks (linesText format snapshots) =
      snapshots.length + lineBreaks (String.join (snapshots.map format.line)) := by
  induction snapshots with
  | nil => rfl
  | cons snapshot snapshots ih =>
      have lineBreak : lineBreaks "\n" = 1 := by decide
      rw [linesText_cons, lineBreaks_append, lineBreaks_append, lineBreak, ih, List.map_cons,
        String.join_cons, lineBreaks_append, List.length_cons]
      omega

theorem lineBreaks_linesText {snapshots : List Snapshot}
    (unbroken : ∀ snapshot ∈ snapshots, lineBreaks (format.line snapshot) = 0) :
    lineBreaks (linesText format snapshots) = snapshots.length := by
  have joined : lineBreaks (String.join (snapshots.map format.line)) = 0 := by
    simpa [lineBreaks_join_eq_zero_iff, lineBreaks_eq_zero_iff] using unbroken
  rw [lineBreaks_linesText_eq, joined, Nat.add_zero]

theorem written_of_within {program : Program} {settings : DriveSettings}
    {wait : Span → π → Bool × π} {pacer : π} {turns : Nat} {outcome : Outcome}
    {final : Show Paper π}
    (returned : Drive.within (host program format ⟨Paper.write, wait⟩) settings turns 0
      (fresh {} pacer) = some (outcome, final)) :
    ((Run.start false).shown program outcome.rendered).length = outcome.rendered ∧
      final.output.written =
        linesText format ((Run.start false).shown program outcome.rendered) := by
  have started : HasShown ⟨Paper.write, wait⟩ format program {} 0 (fresh {} pacer) := ⟨rfl, rfl⟩
  obtain ⟨length_eq, output_eq⟩ := started.within rfl returned
  refine ⟨length_eq, ?_⟩
  rw [output_eq, outputBehindLines_paper]
  simp

end Paper

end Terminal

end BlockStage

import BlockStage.Proofs.ByteOrder
import BlockStage.Proofs.LoopFreeRun
import BlockStage.Proofs.RunDisplay
import Mathlib.Data.List.Nodup

/-!
# Variables and the assignments behind them

A table of variables is sorted by name, so nothing is in it but the value of each name: two tables
in which every name has the same value are one table, whatever was written into them and in which
order.  A run writes into its table by the assignments it executes, and these are the ones that its
snapshots have shown.  So a snapshot shows for every name the value of the last assignment before
it, and zero for a special variable that was not assigned.
-/

namespace BlockStage

namespace Bindings

variable {first second : Bindings}

/-! ### A table is what is found in it -/

theorem names_nodup (bindings : Bindings) : (bindings.pairs.map Prod.fst).Nodup := by
  rw [List.Nodup, List.pairwise_map]
  exact bindings.ascending.imp fun before => String.ne_of_lt before

theorem mem_pairs_iff (bindings : Bindings) (name : String) (value : Float) :
    (name, value) ∈ bindings.pairs ↔ bindings.get? name = some value :=
  Arena.mem_entries_iff ⟨bindings.pairs, bindings.names_nodup⟩ name value

/-- Tables in which every name has the same value are equal. -/
theorem eq_of_get? (same : ∀ name, first.get? name = second.get? name) : first = second := by
  have members (pair : String × Float) : pair ∈ first.pairs ↔ pair ∈ second.pairs := by
    rw [mem_pairs_iff, mem_pairs_iff, same]
  have perm : first.pairs.Perm second.pairs :=
    (List.perm_ext_iff_of_nodup first.names_nodup.of_map second.names_nodup.of_map).mpr members
  have pairs : first.pairs = second.pairs := by
    apply List.Perm.eq_of_pairwise _ first.ascending second.ascending perm
    intro one other _ _ before behind
    exact absurd (String.lt_trans before behind) (String.lt_irrefl _)
  cases first
  cases second
  cases pairs
  rfl

theorem get?_seeded (name : String) :
    seeded.get? name = if name ∈ ["x", "y", "angle"] then some 0 else none := by
  simp only [seeded, get?_set, List.mem_cons, List.not_mem_nil, or_false]
  by_cases isAngle : name = "angle"
  · simp [isAngle]
  · by_cases isY : name = "y"
    · simp [isY]
    · simp only [isAngle, isY, or_false, if_false]
      rfl

/-! ### Writing many values -/

def setAll (bindings : Bindings) (writes : List (String × Float)) : Bindings :=
  writes.foldl (fun table write => table.set write.1 write.2) bindings

def lastValue? (writes : List (String × Float)) (name : String) : Option Float :=
  writes.reverse.lookup name

theorem setAll_append (bindings : Bindings) (earlier later : List (String × Float)) :
    bindings.setAll (earlier ++ later) = (bindings.setAll earlier).setAll later :=
  List.foldl_append

theorem lastValue?_concat (writes : List (String × Float)) (write : String × Float)
    (name : String) :
    lastValue? (writes ++ [write]) name =
      if name = write.1 then some write.2 else lastValue? writes name := by
  rw [lastValue?, List.reverse_append, List.reverse_singleton, List.singleton_append,
    Arena.lookup_cons_eq]
  rfl

theorem get?_setAll (bindings : Bindings) (writes : List (String × Float)) (name : String) :
    (bindings.setAll writes).get? name = (lastValue? writes name).or (bindings.get? name) := by
  induction writes using List.reverseRecOn with
  | nil => rfl
  | append_singleton earlier last ih =>
      have written : (bindings.setAll (earlier ++ [last])) =
          (bindings.setAll earlier).set last.1 last.2 := setAll_append bindings earlier [last]
      rw [written, get?_set, lastValue?_concat, ih]
      split <;> rfl

/-- Only the last value of each name counts, not the order in which the names came. -/
theorem setAll_congr (bindings : Bindings) {writes others : List (String × Float)}
    (same : ∀ name, lastValue? writes name = lastValue? others name) :
    bindings.setAll writes = bindings.setAll others := by
  apply eq_of_get?
  intro name
  rw [get?_setAll, get?_setAll, same]

/-- The pairs of a table, written into an empty one, make the table again. -/
theorem setAll_pairs (bindings : Bindings) : empty.setAll bindings.pairs = bindings := by
  apply eq_of_get?
  intro name
  have known (value : Float) :
      lastValue? bindings.pairs name = some value ↔ bindings.get? name = some value := by
    have reversed : (bindings.pairs.reverse.map Prod.fst).Nodup := by
      rw [List.map_reverse, List.nodup_reverse]
      exact bindings.names_nodup
    rw [lastValue?, ← mem_pairs_iff, ← List.mem_reverse]
    exact (Arena.mem_entries_iff ⟨bindings.pairs.reverse, reversed⟩ name value).symm
  rw [get?_setAll, Option.ext known]
  exact Option.or_none

end Bindings

namespace Program

/-- What a statement writes if it is an assignment: a name, and the value of its expression. -/
def assignment? (program : Program) (bindings : Bindings) (statement : StatementId) :
    Option (String × Float) :=
  match program.statement? statement with
  | some (.assign name value) => some (name, program.evaluate bindings value)
  | _ => none

theorem assignment?_of_not_assign {program : Program} {statement : StatementId}
    (other : ¬ program.IsAssignment statement) (bindings : Bindings) :
    program.assignment? bindings statement = none := by
  unfold assignment?
  split
  · rename_i name value node
    exact absurd ⟨name, value, node⟩ other
  · rfl

theorem written_eq_setAll (program : Program) (bindings : Bindings) (statement : StatementId) :
    program.written bindings statement =
      bindings.setAll (program.assignment? bindings statement).toList := by
  by_cases assigns : program.IsAssignment statement
  · obtain ⟨name, value, node⟩ := assigns
    rw [written_of_assign node]
    simp only [assignment?, node]
    rfl
  · rw [written_of_not_assign assigns, assignment?_of_not_assign assigns]
    rfl

end Program

/-- The assignment that a snapshot shows, with the value it is about to write. -/
def Snapshot.assignment? (program : Program) (snapshot : Snapshot) : Option (String × Float) :=
  program.assignment? (Bindings.empty.setAll snapshot.values) snapshot.statement

namespace Run

variable {program : Program} {run : Run}

/-- The assignment that the next step executes, if the pending statement is one. -/
def assignment? (run : Run) (program : Program) : Option (String × Float) :=
  match run.phase, run.pending with
  | .running, some statement => program.assignment? run.bindings statement
  | _, _ => none

/-- The assignments that the first steps execute, in order. -/
def executed (run : Run) (program : Program) : Nat → List (String × Float)
  | 0 => []
  | count + 1 =>
      run.executed program count ++ ((run.after program count).assignment? program).toList

/-- A step writes what its assignment writes, and nothing else. -/
theorem bindings_step_eq (run : Run) (program : Program) :
    (run.step program).2.bindings = run.bindings.setAll (run.assignment? program).toList := by
  cases phase : run.phase with
  | completed =>
      simp only [step, assignment?, phase]
      rfl
  | ready =>
      simp only [step, assignment?, phase, bindings_proceed]
      rfl
  | running =>
      cases pending : run.pending with
      | none =>
          simp only [step, assignment?, phase, pending, bindings_proceed]
          rfl
      | some statement =>
          simp only [step, assignment?, phase, pending]
          rw [← Program.written_eq_setAll, ← bindings_effect program run.bindings run.stack]
          split
          · rfl
          · exact bindings_proceed _ _ _ _

/-- The variables after some steps are those at the beginning, overwritten by the assignments
that the steps executed. -/
theorem bindings_after (run : Run) (program : Program) (count : Nat) :
    (run.after program count).bindings = run.bindings.setAll (run.executed program count) := by
  induction count with
  | zero => rfl
  | succ count ih => rw [after, bindings_step_eq, ih, executed, Bindings.setAll_append]

/-- Where a run stands at a snapshot, it executes next what the snapshot shows. -/
theorem StandsAt.assignment?_eq {snapshot : Snapshot} (stands : StandsAt program run snapshot) :
    run.assignment? program = snapshot.assignment? program := by
  have table : Bindings.empty.setAll snapshot.values = run.bindings := by
    rw [stands.captured]
    exact run.bindings.setAll_pairs
  rw [Snapshot.assignment?, table]
  rcases stands.pending with waits | ⟨settled, writesNothing⟩
  · simp only [assignment?, stands.running, waits]
  · simp only [assignment?, stands.running, settled]
    rw [Program.assignment?_of_not_assign writesNothing]

/-- The executed assignments are those that the snapshots before have shown. -/
theorem executed_eq_shown (program : Program) (traced : Bool) (count : Nat) :
    (start traced).executed program (count + 1) =
      ((start traced).shown program count).filterMap (Snapshot.assignment? program) := by
  induction count with
  | zero => rfl
  | succ count ih =>
      rw [executed, ih, shown_succ, List.filterMap_append]
      congr 1
      cases returned : (start traced).result program count with
      | some snapshot =>
          have stands := (step_standsAt (owners_after program traced count)).2 snapshot returned
          rw [after, stands.assignment?_eq]
          cases shows : snapshot.assignment? program <;> simp [shows]
      | none =>
          have completed : ((start traced).after program (count + 1)).phase = .completed :=
            phase_step_of_none (wellShaped_after program traced count) returned
          simp only [assignment?, completed]
          rfl

end Run

/-- Every snapshot of a run shows its variables in the order of the bytes of their names, the
special ones among them.  Each has the value of the last assignment to it that was executed before
the snapshot; one that was never assigned is zero if it is special and missing otherwise.  Any
other writes with the same last values would have led to the same table. -/
theorem Run.snapshot_shows_last_assignments (program : Program) (traced : Bool) (count : Nat)
    (snapshot : Snapshot) (shown : (start traced).result program count = some snapshot) :
    let executed := (start traced).executed program (count + 1)
    executed = ((start traced).shown program count).filterMap (Snapshot.assignment? program) ∧
      (snapshot.values.Pairwise fun first second => textBytes first.1 < textBytes second.1) ∧
      (("x", snapshot.special.x) ∈ snapshot.values ∧
        ("y", snapshot.special.y) ∈ snapshot.values ∧
        ("angle", snapshot.special.angle) ∈ snapshot.values) ∧
      (∀ name, snapshot.valueOf? name = (Bindings.lastValue? executed name).or
        (if name ∈ ["x", "y", "angle"] then some 0 else none)) ∧
      ∀ writes, (∀ name, Bindings.lastValue? writes name = Bindings.lastValue? executed name) →
        (Bindings.seeded.setAll writes).pairs = snapshot.values := by
  intro executed
  have stands := (step_standsAt (owners_after program traced count)).2 snapshot shown
  have table : ((start traced).after program (count + 1)).bindings =
      Bindings.seeded.setAll executed := bindings_after (start traced) program (count + 1)
  have values : snapshot.values = (Bindings.seeded.setAll executed).pairs :=
    (congrArg Snapshot.values stands.captured).trans (congrArg Bindings.pairs table)
  have specials : snapshot.special = (Bindings.seeded.setAll executed).special :=
    (congrArg Snapshot.special stands.captured).trans (congrArg Bindings.special table)
  have found (name : String) : (Bindings.seeded.setAll executed).get? name =
      (Bindings.lastValue? executed name).or
        (if name ∈ ["x", "y", "angle"] then some 0 else none) := by
    rw [Bindings.get?_setAll, Bindings.get?_seeded]
  have special (name : String) (isSpecial : name ∈ ["x", "y", "angle"]) :
      (name, ((Bindings.seeded.setAll executed).get? name).getD 0) ∈
        (Bindings.seeded.setAll executed).pairs := by
    rw [Bindings.mem_pairs_iff, found, if_pos isSpecial]
    cases Bindings.lastValue? executed name <;> rfl
  simp only [Snapshot.valueOf?, values, specials]
  refine ⟨executed_eq_shown program traced count, ?_, ?_, found, ?_⟩
  · exact (Bindings.seeded.setAll executed).ascending.imp fun before =>
      (textBytes_lt_iff _ _).mpr before
  · exact ⟨special "x" (by simp), special "y" (by simp), special "angle" (by simp)⟩
  · intro writes same
    exact congrArg Bindings.pairs (Bindings.seeded.setAll_congr same)

/-- Assigns to `😀`, to `～` and to `😀` again, and sleeps.  In UTF-16 the first name would come
first, but its bytes are greater. -/
def reassignedName : Program where
  statements := Arena.ofEntries
    [("0", .assign "😀" "0"), ("1", .assign "～" "1"), ("2", .assign "😀" "2"), ("3", .sleep "3")]
  expressions := Arena.ofEntries [("0", .constant 1), ("1", .constant 2), ("2", .read "～")]
  lists := Arena.ofEntries [(entryList, ["0", "1", "2", "3"])]
  statementCount := 4
  expressionCount := 4
  listCount := 0

/-- In front of the sleep both names have their last values, as if they had been assigned once and
the other way round. -/
theorem reassignedName_shows_last_assignments :
    ∃ snapshot, (Run.start false).result reassignedName 3 = some snapshot ∧
      snapshot.values.map Prod.fst = ["angle", "x", "y", "～", "😀"] ∧
      snapshot.valueOf? "😀" = some 2 ∧ snapshot.valueOf? "x" = some 0 ∧
      snapshot.valueOf? "z" = none ∧
      (Bindings.seeded.setAll [("～", 2), ("😀", 2)]).pairs = snapshot.values := by
  have executed : (Run.start false).executed reassignedName 4 =
      [("😀", 1), ("～", 2), ("😀", 2)] := by
    decide +kernel
  have shows : ((Run.start false).result reassignedName 3).map
      (fun snapshot => snapshot.values.map Prod.fst) = some ["angle", "x", "y", "～", "😀"] := by
    decide +kernel
  obtain ⟨snapshot, shown, names⟩ := Option.map_eq_some_iff.mp shows
  obtain ⟨-, -, -, found, replayed⟩ :=
    Run.snapshot_shows_last_assignments reassignedName false 3 snapshot shown
  rw [executed] at found replayed
  refine ⟨snapshot, shown, names, ?_, ?_, ?_, ?_⟩
  · rw [found]
    rfl
  · rw [found]
    rfl
  · rw [found]
    rfl
  · apply replayed
    intro name
    simp only [Bindings.lastValue?, List.reverse_cons, List.reverse_nil, List.nil_append,
      List.cons_append, Arena.lookup_cons_eq]
    split_ifs <;> rfl

end BlockStage

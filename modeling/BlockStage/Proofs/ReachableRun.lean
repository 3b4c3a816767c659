import BlockStage.Program.Growth
import BlockStage.Proofs.ExpressionTree
import BlockStage.Proofs.RunLoop

/-!
# Runs see what the entry list leads to

A run reads lists, statements and expressions, and each of them only after it
was led there.  Two programs that agree on everything the entry list leads to
have the same runs, whatever else they hold, in whatever order, and wherever
their counters stand.
-/

namespace BlockStage

/-- The programs agree on all that the walk can still meet from a frame on.  The owner of a list is
only shown again, so nothing is asked of it. -/
def Frame.Agreed (first second : Program) : Frame → Prop
  | .sequence statements _ _ =>
      ∀ statement ∈ statements, first.AgreesBelow second (.statement statement)
  | .loop _ condition body =>
      first.AgreesBelow second (.expression condition) ∧ first.AgreesBelow second (.list body)

namespace Run

/-- The programs agree on all that a stack leads to. -/
def Agreed (first second : Program) (stack : List Frame) : Prop :=
  ∀ frame ∈ stack, frame.Agreed first second

section Agreement

variable {first second : Program} {stack : List Frame}

theorem Agreed.cons {frame : Frame} (onFrame : frame.Agreed first second)
    (agreed : Agreed first second stack) : Agreed first second (frame :: stack) := by
  intro other member
  rcases List.mem_cons.mp member with rfl | below
  · exact onFrame
  · exact agreed other below

theorem Agreed.tail {frame : Frame} (agreed : Agreed first second (frame :: stack)) :
    Agreed first second stack :=
  fun other member => agreed other (List.mem_cons_of_mem frame member)

theorem agreed_body {body : ListId} (agrees : first.AgreesBelow second (.list body)) (next : Nat)
    (owner : Option StatementId) :
    first.listOrEmpty body = second.listOrEmpty body ∧
      (Frame.sequence (first.listOrEmpty body) next owner).Agreed first second :=
  ⟨agrees.here, fun _ member => agrees.further (.item member)⟩

/-- A statement that is agreed on has the same effect, and the walk stays where programs agree. -/
theorem effect_agreed (bindings : Bindings) {statement : StatementId}
    (agrees : first.AgreesBelow second (.statement statement))
    (agreed : Agreed first second stack) :
    effect first bindings stack statement = effect second bindings stack statement ∧
      Agreed first second (effect first bindings stack statement).stack := by
  have same : first.statement? statement = second.statement? statement := agrees.here
  unfold effect
  rw [← same]
  cases found : first.statement? statement with
  | none => exact ⟨rfl, agreed⟩
  | some node =>
      have value {expression : ExpressionId} (isSlot : expression ∈ node.expressions) :
          first.evaluate bindings expression = second.evaluate bindings expression :=
        (agrees.further (.slot found isSlot)).evaluate_eq bindings
      cases node with
      | assign name expression =>
          simp only [value (List.mem_singleton_self expression)]
          exact ⟨trivial, agreed⟩
      | sleep duration =>
          simp only [value (List.mem_singleton_self duration)]
          exact ⟨trivial, agreed⟩
      | loop condition body =>
          refine ⟨rfl, agreed.cons ⟨?_, ?_⟩⟩
          · exact agrees.further (.slot found (List.mem_singleton_self condition))
          · exact agrees.further (.body found (List.mem_singleton_self body))
      | branch condition thenBody elseBody =>
          simp only [← value (List.mem_singleton_self condition)]
          generalize chosen :
            (if isTruthy (first.evaluate bindings condition) then thenBody else elseBody) = body
          have isBody : body ∈ (Statement.branch condition thenBody elseBody).bodies := by
            rw [← chosen]
            split <;> simp [Statement.bodies]
          obtain ⟨sameBody, onBody⟩ :=
            agreed_body (agrees.further (.body found isBody)) 0 (some statement)
          rw [← sameBody]
          exact ⟨rfl, agreed.cons onBody⟩

/-- The walk stops at the same place, behind which and from which on the programs agree. -/
theorem advance_agreed (bindings : Bindings) (agreed : Agreed first second stack) :
    advance first bindings stack = advance second bindings stack ∧
      ∀ stop, advance first bindings stack = some stop →
        Agreed first second stop.stack ∧
          (stop.pending = true → first.AgreesBelow second (.statement stop.statement)) := by
  induction stack with
  | nil => exact ⟨rfl, by simp [advance]⟩
  | cons frame rest ih =>
      -- A frame that the walk leaves hands on to those below it, of which the induction tells.
      have onFrame := agreed frame List.mem_cons_self
      obtain ⟨sameRest, stopsRest⟩ := ih agreed.tail
      cases frame with
      | sequence statements next owner =>
          simp only [advance]
          cases taken : statements[next]? with
          | some statement =>
              refine ⟨rfl, ?_⟩
              rintro stop ⟨⟩
              exact ⟨agreed.tail.cons onFrame, fun _ => onFrame _ (List.mem_of_getElem? taken)⟩
          | none =>
              cases statements with
              | cons statement others => exact ⟨sameRest, stopsRest⟩
              | nil =>
                  cases owner with
                  | none => exact ⟨sameRest, stopsRest⟩
                  | some owner =>
                      refine ⟨rfl, ?_⟩
                      rintro stop ⟨⟩
                      exact ⟨agreed.tail, fun isPending => absurd isPending Bool.false_ne_true⟩
      | loop statement condition body =>
          obtain ⟨onCondition, onBody⟩ := onFrame
          simp only [advance, ← onCondition.evaluate_eq bindings]
          cases isTruthy (first.evaluate bindings condition) with
          | false =>
              simp only [Bool.false_eq_true, if_false]
              exact ⟨sameRest, stopsRest⟩
          | true =>
              obtain ⟨sameBody, onItems⟩ := agreed_body onBody 1 (some statement)
              simp only [if_true, ← sameBody]
              refine ⟨trivial, ?_⟩
              rintro stop ⟨⟩
              cases items : first.listOrEmpty body with
              | nil => exact ⟨agreed, fun isPending => absurd isPending Bool.false_ne_true⟩
              | cons item others =>
                  rw [items] at onItems
                  exact ⟨agreed.cons onItems, fun _ => onItems item List.mem_cons_self⟩

/-- The programs agree on all that a run can still meet. -/
structure Confined (first second : Program) (run : Run) : Prop where
  stack : Agreed first second run.stack
  pending : ∀ statement, run.pending = some statement →
    first.AgreesBelow second (.statement statement)

theorem proceed_confined (run : Run) (bindings : Bindings) (agreed : Agreed first second stack) :
    run.proceed first bindings stack = run.proceed second bindings stack ∧
      Confined first second (run.proceed first bindings stack).2 := by
  obtain ⟨same, stops⟩ := advance_agreed bindings agreed
  unfold proceed
  rw [← same]
  refine ⟨rfl, ?_⟩
  cases stopped : advance first bindings stack with
  | none => exact ⟨by simp [Agreed], by simp⟩
  | some stop =>
      obtain ⟨below, onStatement⟩ := stops stop stopped
      refine ⟨below, ?_⟩
      intro statement isPending
      cases waits : stop.pending with
      | false => simp [emit, waits] at isPending
      | true =>
          obtain rfl : stop.statement = statement := by simpa [emit, waits] using isPending
          exact onStatement waits

/-- A step of a run is the same in both programs, and leads on to where they agree. -/
theorem step_confined {run : Run} (entry : first.AgreesBelow second (.list entryList))
    (confined : Confined first second run) :
    run.step first = run.step second ∧ Confined first second (run.step first).2 := by
  unfold step
  cases run.phase with
  | completed => exact ⟨rfl, confined⟩
  | ready =>
      obtain ⟨sameEntry, onEntry⟩ := agreed_body entry 0 none
      have sameStart : first.entry = second.entry := sameEntry
      simp only [← sameStart]
      exact proceed_confined run run.bindings (Agreed.cons onEntry (by simp [Agreed]))
  | running =>
      cases waiting : run.pending with
      | none => exact proceed_confined run run.bindings confined.stack
      | some statement =>
          obtain ⟨same, below⟩ :=
            effect_agreed run.bindings (confined.pending statement waiting) confined.stack
          simp only [← same]
          cases (effect first run.bindings run.stack statement).sleep with
          | none => exact proceed_confined run _ below
          | some duration => exact ⟨rfl, below, by simp [emit]⟩

/-- After any number of steps the runs are the same. -/
theorem after_confined (entry : first.AgreesBelow second (.list entryList)) (traced : Bool)
    (count : Nat) :
    (start traced).after first count = (start traced).after second count ∧
      Confined first second ((start traced).after first count) := by
  induction count with
  | zero => exact ⟨rfl, by simp [after, start, Agreed], by simp [after, start]⟩
  | succ count ih =>
      obtain ⟨same, confined⟩ := ih
      obtain ⟨sameStep, further⟩ := step_confined entry confined
      refine ⟨?_, further⟩
      rw [after, after, ← same, sameStep]

end Agreement

/-- Untouched runs of both programs are alike: after every number of steps they are the same, and
the next step shows the same. -/
def SameRuns (first second : Program) : Prop :=
  ∀ (traced : Bool) (count : Nat),
    (start traced).after first count = (start traced).after second count ∧
      (start traced).result first count = (start traced).result second count

theorem sameRuns_of_agreesBelow {first second : Program}
    (entry : first.AgreesBelow second (.list entryList)) : SameRuns first second := by
  intro traced count
  obtain ⟨same, confined⟩ := after_confined entry traced count
  refine ⟨same, ?_⟩
  rw [result, result, ← same, (step_confined entry confined).1]

/-- Programs that agree on all that the entry list leads to have the same runs.  They keep them
whatever is stored or removed at places that the entry list does not lead to, and wherever the
counters are set. -/
theorem runs_depend_on_reachable_parts (first second : Program)
    (agrees : first.AgreesBelow second (.list entryList)) :
    SameRuns first second ∧
      ∀ (writes : List Program.Write) (statementCount expressionCount listCount : UInt64),
        (∀ write ∈ writes, ¬ first.Reaches (.list entryList) write.part) →
        SameRuns first
          { second.rewritten writes with statementCount, expressionCount, listCount } := by
  refine ⟨sameRuns_of_agreesBelow agrees, ?_⟩
  intro writes statementCount expressionCount listCount detached
  apply sameRuns_of_agreesBelow
  intro part reaches
  exact (agrees.rewritten detached part reaches).trans (by cases part <;> rfl)

/-- A loop whose body is also a branch in the body, with a hole for a condition, a missing list
for the other body, an operand of itself, and a missing statement at the end. -/
def tangledLoop : Program where
  statements := Arena.ofEntries
    [("0", .loop "0" "0"), ("1", .assign "x" "3"), ("2", .branch "4" "0" "9")]
  expressions := Arena.ofEntries
    [("0", .binary (.comparison .less) "1" "2"), ("1", .read "x"), ("2", .constant 3),
      ("3", .binary (.arithmetic .add) "1" "3")]
  lists := Arena.ofEntries [(entryList, ["0", "7"]), ("0", ["1", "2"])]
  statementCount := 3
  expressionCount := 5
  listCount := 1

/-- The same loop in other tables: the missing list is an empty one here, the order differs, the
counters are exhausted, and nodes lie about that nothing refers to. -/
def crowdedLoop : Program where
  statements := Arena.ofEntries
    [("5", .sleep "0"), ("2", .branch "4" "0" "9"), ("1", .assign "x" "3"), ("0", .loop "0" "0")]
  expressions := Arena.ofEntries
    [("3", .binary (.arithmetic .add) "1" "3"), ("6", .negate "0"), ("2", .constant 3),
      ("1", .read "x"), ("0", .binary (.comparison .less) "1" "2")]
  lists := Arena.ofEntries
    [("9", []), ("8", ["5", "0"]), ("0", ["1", "2"]), (entryList, ["0", "7"])]
  statementCount := lastCount
  expressionCount := lastCount
  listCount := lastCount

/-- All that the entry list of the loop leads to. -/
def tangledParts : List Part :=
  [.list entryList, .list "0", .list "9", .statement "0", .statement "1", .statement "2",
    .statement "7", .expression "0", .expression "1", .expression "2", .expression "3",
    .expression "4"]

theorem mem_tangledParts {part : Part} (reaches : tangledLoop.Reaches (.list entryList) part) :
    part ∈ tangledParts :=
  reaches.mem_of_closed (by decide +kernel) (by decide +kernel)

theorem tangledLoop_agreesBelow : tangledLoop.AgreesBelow crowdedLoop (.list entryList) := by
  intro part reaches
  have member := mem_tangledParts reaches
  simp only [tangledParts, List.mem_cons, List.not_mem_nil, or_false] at member
  rcases member with
    rfl | rfl | rfl | rfl | rfl | rfl | rfl | rfl | rfl | rfl | rfl | rfl <;> rfl

/-- Fills the slot that refers to the condition of the loop, adds a list and a statement, and
removes the sleep. -/
def crowdedWrites : List Program.Write :=
  [.expression "6" (some (.binary (.logic .either) "0" "6")), .list "1" (some ["0"]),
    .statement "6" (some (.loop "0" "1")), .statement "5" none]

theorem tangledLoop_runs_alike :
    tangledLoop.AgreesBelow crowdedLoop (.list entryList) ∧
      (∀ write ∈ crowdedWrites, ¬ tangledLoop.Reaches (.list entryList) write.part) ∧
      SameRuns tangledLoop crowdedLoop ∧
      SameRuns tangledLoop
        { crowdedLoop.rewritten crowdedWrites with
          statementCount := 0, expressionCount := 7, listCount := 2 } := by
  have detached : ∀ write ∈ crowdedWrites, ¬ tangledLoop.Reaches (.list entryList) write.part := by
    have apart : ∀ write ∈ crowdedWrites, write.part ∉ tangledParts := by decide +kernel
    exact fun write member reaches => apart write member (mem_tangledParts reaches)
  obtain ⟨same, sameRewritten⟩ :=
    runs_depend_on_reachable_parts tangledLoop crowdedLoop tangledLoop_agreesBelow
  exact ⟨tangledLoop_agreesBelow, detached, same, sameRewritten crowdedWrites 0 7 2 detached⟩

end Run

end BlockStage

import BlockStage.Evaluation
import BlockStage.Proofs.ProgramPlaces

/-! # The expressions of an edited program form a forest

Slots are filled, filled again and cleared in any order, and what was filled before is left
behind as a tree of its own that may be filled on.  If only slots are filled that an edit has
reported, every expression is still named at one place at most: an operand is always a new
identifier, with a larger number than the slot it is an operand of.  So no expression is one
of its own operands, and its number is what the plain rules of evaluation say.
-/

namespace BlockStage

/-! ### Sessions that fill reported slots -/

def EditResult.reported : EditResult → List ExpressionId
  | .added _ slots => slots.expressions
  | .filled slots => slots.expressions
  | _ => []

namespace EditCommand

/-- The expression slots that are reported when an edit is attempted. -/
def reported : Except EditError EditResult → List ExpressionId
  | .ok result => result.reported
  | .error _ => []

/-- If the command fills a slot, it is one of those given. -/
def fillsOneOf (known : List ExpressionId) : EditCommand → Bool
  | .fillExpression id _ _ _ => known.contains id
  | _ => true

/-- Every slot that is filled was known before or was reported by an earlier edit. -/
def fillsReported (known : List ExpressionId) (program : Program) : List EditCommand → Bool
  | [] => true
  | command :: later =>
      let (outcome, after) := command.attempt program
      command.fillsOneOf known && fillsReported (known ++ reported outcome) after later

end EditCommand

namespace Program

/-- The second expression is an operand of the first. -/
def Uses (program : Program) (expression operand : ExpressionId) : Prop :=
  ∃ slot, program.expressionAt? (.inExpression expression slot) = some operand

/-- What edits preserve: all expressions that are named anywhere were reported, no two places
name the same one, and operands have larger numbers. -/
structure Orderly (known : List ExpressionId) (program : Program) : Prop where
  numbered : ∀ id ∈ known, Numbered 0 program.expressionCount id
  named : ∀ {place id}, program.expressionAt? place = some id → id ∈ known
  namedOnce : ∀ {first second id}, program.expressionAt? first = some id →
    program.expressionAt? second = some id → first = second
  rising : ∀ ⦃parent child⦄, program.Uses parent child → Precedes parent child

theorem orderly_empty : Orderly [] Program.empty := by
  have nothing (place : ExpressionPlace) : Program.empty.expressionAt? place = none := by
    cases place with
    | inStatement statement slot =>
        rw [expressionAt?, statement?, empty, Arena.find?_empty, Option.bind_none]
    | inExpression expression slot =>
        rw [expressionAt?, expression?, empty, Arena.find?_empty, Option.bind_none]
  refine { numbered := by simp, named := ?_, namedOnce := ?_, rising := ?_ }
  · simp [nothing]
  · simp [nothing]
  · rintro parent child ⟨slot, isOperand⟩
    simp [nothing] at isOperand

namespace Orderly

variable {known : List ExpressionId} {program after : Program}

/-- Identifiers that were just taken have not been reported. -/
theorem not_mem_of_took (orderly : Orderly known program) {ids : List ExpressionId}
    (took : Supply.expressions.Took program after ids) {id : ExpressionId} (isNew : id ∈ ids) :
    id ∉ known :=
  fun isKnown => (orderly.numbered id isKnown).ne (took.numbered id isNew) rfl

theorem numbered_of_took (orderly : Orderly known program) {ids : List ExpressionId}
    (took : Supply.expressions.Took program after ids) :
    ∀ id ∈ known ++ ids, Numbered 0 after.expressionCount id := by
  intro id member
  rcases List.mem_append.mp member with isKnown | isNew
  · exact (orderly.numbered id isKnown).mono (UInt64.le_refl _) took.count_le
  · exact (took.numbered id isNew).mono UInt64.zero_le (UInt64.le_refl _)

/-- A statement or a node has come to name expressions that were just taken, and at most that
has been added to what is named. -/
theorem grown (orderly : Orderly known program) {ids : List ExpressionId}
    (took : Supply.expressions.Took program after ids) (placeOf : Nat → ExpressionPlace)
    (places : ∀ {place id}, after.expressionAt? place = some id →
      program.expressionAt? place = some id ∨
        ∃ slot, place = placeOf slot ∧ ids[slot]? = some id)
    (owner : ∀ {slot parent other}, placeOf slot = .inExpression parent other →
      parent ∈ known) :
    Orderly (known ++ ids) after := by
  have unnamed {place : ExpressionPlace} {slot : Nat} {id : ExpressionId}
      (isNew : ids[slot]? = some id) : program.expressionAt? place ≠ some id :=
    fun wasNamed =>
      orderly.not_mem_of_took took (List.mem_of_getElem? isNew) (orderly.named wasNamed)
  refine { numbered := orderly.numbered_of_took took, named := ?_, namedOnce := ?_, rising := ?_ }
  · intro place id isNamed
    rcases places isNamed with before | ⟨slot, -, isNew⟩
    · exact List.mem_append_left _ (orderly.named before)
    · exact List.mem_append_right _ (List.mem_of_getElem? isNew)
  · intro first second id namedFirst namedSecond
    rcases places namedFirst with before | ⟨slot, rfl, isNew⟩ <;>
      rcases places namedSecond with old | ⟨other, rfl, isNewToo⟩
    · exact orderly.namedOnce before old
    · exact absurd before (unnamed isNewToo)
    · exact absurd old (unnamed isNew)
    · have inside := (List.getElem?_eq_some_iff.mp isNew).1
      rw [(List.getElem?_inj inside took.nodup).mp (isNew.trans isNewToo.symm)]
  · rintro parent child ⟨slot, isOperand⟩
    rcases places isOperand with before | ⟨other, here, isNew⟩
    · exact orderly.rising ⟨slot, before⟩
    · -- The slot was reported before, so the operand was taken from behind its number.
      exact .of_numbered (orderly.numbered parent (owner here.symm))
        (took.numbered child (List.mem_of_getElem? isNew))

/-- Nothing is named that was not named there before. -/
theorem restrict (orderly : Orderly known program)
    (count_le : program.expressionCount ≤ after.expressionCount)
    (places : ∀ {place id}, after.expressionAt? place = some id →
      program.expressionAt? place = some id) : Orderly known after := by
  refine { numbered := ?_, named := ?_, namedOnce := ?_, rising := ?_ }
  · intro id isKnown
    exact (orderly.numbered id isKnown).mono (UInt64.le_refl _) count_le
  · exact fun isNamed => orderly.named (places isNamed)
  · exact fun first second => orderly.namedOnce (places first) (places second)
  · rintro parent child ⟨slot, isOperand⟩
    exact orderly.rising ⟨slot, places isOperand⟩

/-- An edit keeps the program orderly, also one that is cut off, if it fills no slot that was
not reported. -/
theorem change (orderly : Orderly known program) {command : EditCommand}
    {outcome : Except EditError EditResult} (change : Change program command outcome after)
    (fillsKnown : command.fillsOneOf known = true) :
    Orderly (known ++ EditCommand.reported outcome) after := by
  have nothingNew (orderly : Orderly known after)
      (silent : EditCommand.reported outcome = []) :
      Orderly (known ++ EditCommand.reported outcome) after := by
    rwa [silent, List.append_nil]
  cases change with
  | @added list word id node after _ added =>
      refine orderly.grown added.tookHoles (.inStatement id) ?_ ?_
      · exact fun isNamed => (added.expressionAt?_iff _ _).mp isNamed
      · exact fun isOperand => by cases isOperand
  | @filled id word value name node after filled =>
      refine orderly.grown filled.tookHoles (.inExpression id) ?_ ?_
      · intro place expression isNamed
        rcases (filled.expressionAt?_iff _ _).mp isNamed with isNew | ⟨-, before⟩
        · exact Or.inr isNew
        · exact Or.inl before
      · intro slot parent other here
        cases here
        exact List.contains_iff_mem.mp fillsKnown
  | cleared id =>
      exact nothingNew (orderly.restrict (UInt64.le_refl _) expressionAt?_clear) rfl
  | renamed found =>
      refine nothingNew (orderly.restrict (UInt64.le_refl _) ?_) rfl
      intro place id isNamed
      rwa [expressionAt?_rename found] at isNamed
  | removed removed =>
      obtain ⟨items, -, rfl⟩ := removeAt_eq_some removed
      exact nothingNew (orderly.restrict (UInt64.le_refl _) fun isNamed => isNamed) rfl
  | refused => exact nothingNew orderly rfl
  | cutOff _ grown =>
      refine nothingNew (orderly.restrict grown.count_le ?_) rfl
      intro place id isNamed
      cases place with
      | inStatement statement slot =>
          simpa only [expressionAt?, statement?, grown.statements] using isNamed
      | inExpression expression slot =>
          simpa only [expressionAt?, expression?, grown.expressions] using isNamed

/-- A session that fills reported slots keeps the program orderly. -/
theorem attemptAll (orderly : Orderly known program) (commands : List EditCommand)
    (fillsReported : EditCommand.fillsReported known program commands = true) :
    ∃ known, Orderly known (EditCommand.attemptAll program commands).2 := by
  induction commands generalizing known program with
  | nil => exact ⟨known, orderly⟩
  | cons command later ih =>
      simp only [EditCommand.fillsReported, Bool.and_eq_true] at fillsReported
      exact ih (orderly.change (command.attempt_changes program) fillsReported.1) fillsReported.2

end Orderly

/-! ### Evaluation without cycles -/

/-- The plain rules of evaluation.  They say nothing about an expression that is one of its
own operands. -/
inductive HasNumber (program : Program) (bindings : Bindings) : ExpressionId → Float → Prop where
  | hole {id : ExpressionId} : program.expression? id = none → HasNumber program bindings id 0
  | constant {id : ExpressionId} {value : Float} :
      program.expression? id = some (.constant value) → HasNumber program bindings id value
  | bound {id : ExpressionId} {name : String} {value : Float} :
      program.expression? id = some (.read name) → bindings.get? name = some value →
      HasNumber program bindings id value
  | unbound {id : ExpressionId} {name : String} :
      program.expression? id = some (.read name) → bindings.get? name = none →
      HasNumber program bindings id Binary64.nan
  | negate {id operand : ExpressionId} {value : Float} :
      program.expression? id = some (.negate operand) → HasNumber program bindings operand value →
      HasNumber program bindings id (truth (!isTruthy value))
  | binary {id left right : ExpressionId} {operator : Operator} {leftValue rightValue : Float} :
      program.expression? id = some (.binary operator left right) →
      HasNumber program bindings left leftValue → HasNumber program bindings right rightValue →
      HasNumber program bindings id (operator.apply leftValue rightValue)

theorem HasNumber.unique {program : Program} {bindings : Bindings} {id : ExpressionId}
    {value other : Float} (first : program.HasNumber bindings id value)
    (second : program.HasNumber bindings id other) : value = other := by
  induction first generalizing other with
  | hole missing => cases second <;> simp_all
  | constant found => cases second <;> simp_all
  | bound found isBound => cases second <;> simp_all
  | unbound found isUnbound => cases second <;> simp_all
  | negate found _ ih =>
      cases second with
      | negate foundToo number =>
          cases found.symm.trans foundToo
          rw [ih number]
      | _ => simp_all
  | binary found _ _ ihLeft ihRight =>
      cases second with
      | binary foundToo leftNumber rightNumber =>
          cases found.symm.trans foundToo
          rw [ihLeft leftNumber, ihRight rightNumber]
      | _ => simp_all

/-- Evaluation arrives at an expression along a path: it was asked for the expression, or for
one that has it as an operand. -/
inductive Arrives (program : Program) : List ExpressionId → ExpressionId → Prop where
  | start (id : ExpressionId) : Arrives program [] id
  | operand {path : List ExpressionId} {id operand : ExpressionId} {node : Expression} :
      Arrives program path id → program.expression? id = some node → operand ∈ node.operands →
      Arrives program (id :: path) operand

theorem uses_of_mem_operands {program : Program} {id operand : ExpressionId} {node : Expression}
    (found : program.expression? id = some node) (isOperand : operand ∈ node.operands) :
    program.Uses id operand := by
  obtain ⟨slot, atSlot⟩ := List.mem_iff_getElem?.mp isOperand
  exact ⟨slot, expressionAt?_inExpression_iff.mpr ⟨node, found, atSlot⟩⟩

namespace Arrives

variable {program : Program} {path : List ExpressionId} {id : ExpressionId}

theorem reaches (arrives : program.Arrives path id) :
    ∀ ancestor ∈ path, Relation.TransGen program.Uses ancestor id := by
  induction arrives with
  | start id => simp
  | operand _ found isOperand ih =>
      have edge := uses_of_mem_operands found isOperand
      intro ancestor member
      rcases List.mem_cons.mp member with rfl | further
      · exact .single edge
      · exact (ih ancestor further).tail edge

/-- Where no expression reaches itself, evaluation never arrives where it has been. -/
theorem not_mem (acyclic : ∀ id, ¬ Relation.TransGen program.Uses id id)
    (arrives : program.Arrives path id) : id ∉ path :=
  fun seen => acyclic id (arrives.reaches id seen)

/-- Evaluation that never arrives where it has been follows the rules. -/
theorem hasNumber (unseen : ∀ {path id}, program.Arrives path id → id ∉ path)
    (bindings : Bindings) (arrives : program.Arrives path id) :
    program.HasNumber bindings id (program.evaluateAlong bindings path id) := by
  induction left : program.expressions.unvisited path using Nat.strong_induction_on
    generalizing path id with
  | _ count ih =>
    rw [evaluateAlong]
    split
    · rename_i missing
      exact .hole missing
    · rename_i node found
      rw [dif_neg (unseen arrives)]
      have fewer : program.expressions.unvisited (id :: path) < count :=
        left ▸ Arena.unvisited_cons_lt (Arena.mem_keys_of_find? found) (unseen arrives)
      have operandNumber {operand : ExpressionId} (isOperand : operand ∈ node.operands) :
          program.HasNumber bindings operand
            (program.evaluateAlong bindings (id :: path) operand) :=
        ih _ fewer (arrives.operand found isOperand) rfl
      cases node with
      | constant value => exact .constant found
      | read name =>
          cases isBound : bindings.get? name with
          | none => simpa [isBound] using .unbound found isBound
          | some value => simpa [isBound] using .bound found isBound
      | negate operand => exact .negate found (operandNumber (by simp [Expression.operands]))
      | binary operator left right =>
          exact .binary found (operandNumber (by simp [Expression.operands]))
            (operandNumber (by simp [Expression.operands]))

end Arrives

/-- After any session of edits on the empty program that fills only slots reported before,
every expression is named at one place at most, all that are named have numbers below the
counter, and operands have larger numbers than what they are operands of.  So no expression
reaches itself, evaluation never arrives at an expression it has come through, and its number
is the one that the plain rules give. -/
theorem edited_expressions_are_forest (commands : List EditCommand)
    (fillsReported : EditCommand.fillsReported [] .empty commands = true) :
    let program := (EditCommand.attemptAll .empty commands).2
    (∀ first second id, program.expressionAt? first = some id →
        program.expressionAt? second = some id → first = second) ∧
      (∀ place id, program.expressionAt? place = some id →
        Numbered 0 program.expressionCount id) ∧
      (∀ parent child, program.Uses parent child → Precedes parent child) ∧
      (∀ id, ¬ Relation.TransGen program.Uses id id) ∧
      (∀ path id, program.Arrives path id → id ∉ path) ∧
      ∀ bindings id value,
        program.HasNumber bindings id value ↔ value = program.evaluate bindings id := by
  intro program
  obtain ⟨known, orderly⟩ := orderly_empty.attemptAll commands fillsReported
  have acyclic := Precedes.not_transGen orderly.rising
  refine ⟨?_, ?_, ?_, acyclic, ?_, ?_⟩
  · exact fun first second id => orderly.namedOnce
  · exact fun place id isNamed => orderly.numbered id (orderly.named isNamed)
  · exact fun parent child isOperand => orderly.rising isOperand
  · exact fun path id arrives => arrives.not_mem acyclic
  · intro bindings id value
    have number := (Arrives.start id).hasNumber (fun arrives => arrives.not_mem acyclic) bindings
    constructor
    · exact fun isNumber => isNumber.unique number
    · rintro rfl
      exact number

/-- A session that fills a slot, fills on below it, fills it again, clears another one, and
then fills what was left behind. -/
def refillingEdits : List EditCommand :=
  [.addStatement entryList "assign", .fillExpression "0" "add" none none,
    .fillExpression "1" "not" none none, .fillExpression "0" "mul" none none,
    .fillExpression "3" "lt" none none, .clearExpression "4", .remove entryList 0,
    .fillExpression "2" "add" none none, .addStatement "7" "while", .addStatement entryList "if",
    .fillExpression "8" "const" (some 2.5) none, .fillExpression "8" "divide" none none]

theorem refillingEdits_are_forest :
    EditCommand.fillsReported [] .empty refillingEdits = true ∧
      ∀ id, ¬ Relation.TransGen (EditCommand.attemptAll .empty refillingEdits).2.Uses id id := by
  have fillsReported : EditCommand.fillsReported [] .empty refillingEdits = true := by
    decide +kernel
  obtain ⟨-, -, -, acyclic, -, -⟩ := edited_expressions_are_forest refillingEdits fillsReported
  exact ⟨fillsReported, acyclic⟩

end Program

end BlockStage

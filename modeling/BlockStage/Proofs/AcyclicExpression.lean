import BlockStage.Proofs.ExpressionForest
import BlockStage.Proofs.ExpressionTree

/-!
# Evaluation where no expression reaches itself

Evaluation remembers the expressions it has come through, so the number of an operand is asked
for with its ancestors open, while the number of an expression as such is asked for with
nothing open.  The two agree as long as no ancestor can be reached from the operand: what is
open makes a difference only where it is met again.  Below an expression from which no circle
of references can be reached, the number of a node is therefore what its operator makes of the
numbers of its operands, and a part may be exchanged for another one of the same number.
-/

namespace BlockStage

namespace Program

/-- No circle of references can be reached from an expression. -/
def AcyclicBelow (program : Program) (root : ExpressionId) : Prop :=
  ∀ id, Relation.ReflTransGen program.Uses root id → ¬ Relation.TransGen program.Uses id id

variable {program : Program} {id operand : ExpressionId}

theorem exists_node_of_uses (uses : program.Uses id operand) :
    ∃ node, program.expression? id = some node ∧ operand ∈ node.operands := by
  obtain ⟨slot, atSlot⟩ := uses
  obtain ⟨node, found, named⟩ := expressionAt?_inExpression_iff.mp atSlot
  exact ⟨node, found, List.mem_of_getElem? named⟩

namespace AcyclicBelow

theorem of_reaches (acyclic : program.AcyclicBelow id) {other : ExpressionId}
    (reaches : Relation.ReflTransGen program.Uses id other) : program.AcyclicBelow other :=
  fun further reachesFurther => acyclic further (reaches.trans reachesFurther)

theorem of_uses (acyclic : program.AcyclicBelow id) (uses : program.Uses id operand) :
    program.AcyclicBelow operand :=
  acyclic.of_reaches (.single uses)

theorem not_reaches_back (acyclic : program.AcyclicBelow id) (uses : program.Uses id operand) :
    ¬ Relation.ReflTransGen program.Uses operand id :=
  fun back => acyclic id .refl (.head' uses back)

/-- To show something of an expression without circles, it is enough to show it of every such
expression whose operands have it. -/
theorem induction {motive : ExpressionId → Prop}
    (step : ∀ id, program.AcyclicBelow id →
      (∀ operand, program.Uses id operand → motive operand) → motive id)
    (acyclic : program.AcyclicBelow id) : motive id := by
  -- The walk from the expression never meets its own path, whose members all lead to it.
  have walk (path : List ExpressionId) (id : ExpressionId) : program.AcyclicBelow id →
      (∀ ancestor ∈ path, Relation.TransGen program.Uses ancestor id) → motive id := by
    induction path, id using program.walk_induction with
    | hole path id missing =>
        intro acyclic _
        refine step id acyclic fun operand uses => ?_
        obtain ⟨node, found, -⟩ := exists_node_of_uses uses
        rw [missing] at found
        cases found
    | visited path id node found seen =>
        intro acyclic leads
        exact absurd (leads id seen) (acyclic id .refl)
    | entered path id node found unseen ih =>
        intro acyclic leads
        refine step id acyclic fun operand uses => ?_
        obtain ⟨other, foundToo, isOperand⟩ := exists_node_of_uses uses
        obtain rfl : node = other := Option.some.inj (found.symm.trans foundToo)
        refine ih operand isOperand (acyclic.of_uses uses) fun ancestor member => ?_
        rcases List.mem_cons.mp member with rfl | further
        · exact .single uses
        · exact (leads ancestor further).tail uses
  exact walk [] id acyclic (by simp)

end AcyclicBelow

/-- A rank that falls from every node to its operands leaves no circle. -/
theorem acyclicBelow_of_falls {rank : ExpressionId → Nat}
    (falls : ∀ entry ∈ program.expressions.entries, ∀ operand ∈ entry.2.operands,
      rank operand < rank entry.1) (root : ExpressionId) : program.AcyclicBelow root := by
  have sinks {first last : ExpressionId} (leads : Relation.TransGen program.Uses first last) :
      rank last < rank first := by
    have falls {id operand : ExpressionId} (uses : program.Uses id operand) :
        rank operand < rank id := by
      obtain ⟨node, found, isOperand⟩ := exists_node_of_uses uses
      exact falls (id, node) ((Arena.mem_entries_iff _ id node).mpr found) operand isOperand
    induction leads with
    | single uses => exact falls uses
    | tail _ uses ih => exact Nat.lt_trans (falls uses) ih
  exact fun id _ circle => Nat.lt_irrefl _ (sinks circle)

/-! ### What is open -/

/-- An expression is written out alike along two paths that agree on all it can reach. -/
theorem treeAlong_eq_of_same_open {first second : List ExpressionId}
    (same : ∀ other, Relation.ReflTransGen program.Uses id other →
      (other ∈ first ↔ other ∈ second)) :
    program.treeAlong first id = program.treeAlong second id := by
  induction first, id using program.walk_induction generalizing second with
  | hole first id missing => rw [treeAlong_of_hole missing, treeAlong_of_hole missing]
  | visited first id node found seen =>
      rw [treeAlong_of_visited found seen,
        treeAlong_of_visited found ((same id .refl).mp seen)]
  | entered first id node found unseen ih =>
      rw [treeAlong_of_found found unseen,
        treeAlong_of_found found (mt (same id .refl).mpr unseen)]
      apply nodeTree_congr
      intro operand isOperand
      refine ih operand isOperand fun other reaches => ?_
      have uses := uses_of_mem_operands found isOperand
      rw [List.mem_cons, List.mem_cons, same other (.head uses reaches)]

namespace AcyclicBelow

variable {bindings : Bindings}

/-- A node is written out from its operands as such, as if nothing was open. -/
theorem treeAlong_eq (acyclic : program.AcyclicBelow id) {node : Expression}
    (found : program.expression? id = some node) :
    program.treeAlong [] id = nodeTree (program.treeAlong []) node := by
  rw [treeAlong_of_found found List.not_mem_nil]
  apply nodeTree_congr
  intro operand isOperand
  have back := acyclic.not_reaches_back (uses_of_mem_operands found isOperand)
  refine treeAlong_eq_of_same_open fun other reaches => ?_
  have apart : other ≠ id := fun same => back (same ▸ reaches)
  simp [apart]

/-- The number of a node comes from the numbers of its operands as such. -/
theorem evaluate_of_found (acyclic : program.AcyclicBelow id) {node : Expression}
    (found : program.expression? id = some node) :
    program.evaluate bindings id = (nodeTree (program.treeAlong []) node).number bindings := by
  rw [evaluate, evaluateAlong_eq_number, acyclic.treeAlong_eq found]

theorem evaluate_negate (acyclic : program.AcyclicBelow id)
    (found : program.expression? id = some (.negate operand)) :
    program.evaluate bindings id = truth (!isTruthy (program.evaluate bindings operand)) := by
  rw [acyclic.evaluate_of_found found, evaluate, evaluateAlong_eq_number]
  rfl

theorem evaluate_binary (acyclic : program.AcyclicBelow id) {operator : Operator}
    {left right : ExpressionId}
    (found : program.expression? id = some (.binary operator left right)) :
    program.evaluate bindings id =
      operator.apply (program.evaluate bindings left) (program.evaluate bindings right) := by
  rw [acyclic.evaluate_of_found found, evaluate, evaluate, evaluateAlong_eq_number,
    evaluateAlong_eq_number]
  rfl

end AcyclicBelow

theorem evaluate_of_hole {bindings : Bindings} (missing : program.expression? id = none) :
    program.evaluate bindings id = 0 := by
  rw [evaluate, evaluateAlong_eq_number, treeAlong_of_hole missing]
  rfl

/-- The plain rules give the number of an expression without circles. -/
theorem AcyclicBelow.hasNumber (acyclic : program.AcyclicBelow id) (bindings : Bindings) :
    program.HasNumber bindings id (program.evaluate bindings id) := by
  refine acyclic.induction
    (motive := fun id => program.HasNumber bindings id (program.evaluate bindings id)) ?_
  intro id acyclic operands
  cases found : program.expression? id with
  | none =>
      rw [evaluate_of_hole found]
      exact .hole found
  | some node =>
      have operandNumber {operand : ExpressionId} (isOperand : operand ∈ node.operands) :=
        operands operand (uses_of_mem_operands found isOperand)
      cases node with
      | constant value =>
          rw [acyclic.evaluate_of_found found]
          exact .constant found
      | read name =>
          rw [acyclic.evaluate_of_found found, nodeTree, ExpressionTree.number]
          cases bound : bindings.get? name with
          | none => exact .unbound found bound
          | some value => exact .bound found bound
      | negate operand =>
          rw [acyclic.evaluate_negate found]
          exact .negate found (operandNumber (by simp [Expression.operands]))
      | binary operator left right =>
          rw [acyclic.evaluate_binary found]
          exact .binary found (operandNumber (by simp [Expression.operands]))
            (operandNumber (by simp [Expression.operands]))

/-! ### Exchanging a part -/

/-- A node has the same number in two trees whose operands have. -/
theorem number_nodeTree_congr {node : Expression} {bindings : Bindings}
    {firstTree secondTree : ExpressionId → ExpressionTree}
    (same : ∀ operand ∈ node.operands,
      (firstTree operand).number bindings = (secondTree operand).number bindings) :
    (nodeTree firstTree node).number bindings = (nodeTree secondTree node).number bindings := by
  cases node with
  | constant value => rfl
  | read name => rfl
  | negate operand =>
      simp only [nodeTree, ExpressionTree.number, same operand (by simp [Expression.operands])]
  | binary operator left right =>
      simp only [nodeTree, ExpressionTree.number, same left (by simp [Expression.operands]),
        same right (by simp [Expression.operands])]

/-- Programs that differ at one expression only, and agree on its number, agree on the number
of every expression that is without circles in both. -/
theorem evaluate_eq_of_agrees_elsewhere {first second : Program} {bindings : Bindings}
    {root target : ExpressionId} (firstAcyclic : first.AcyclicBelow root)
    (secondAcyclic : second.AcyclicBelow root)
    (elsewhere : ∀ id, id ≠ target → first.expression? id = second.expression? id)
    (agrees : first.evaluate bindings target = second.evaluate bindings target) :
    first.evaluate bindings root = second.evaluate bindings root := by
  refine firstAcyclic.induction (motive := fun id => second.AcyclicBelow id →
    first.evaluate bindings id = second.evaluate bindings id) ?_ secondAcyclic
  intro id acyclic operands acyclicToo
  by_cases here : id = target
  · rw [here, agrees]
  · have same := elsewhere id here
    cases found : first.expression? id with
    | none => rw [evaluate_of_hole found, evaluate_of_hole (same ▸ found)]
    | some node =>
        have foundToo : second.expression? id = some node := same ▸ found
        rw [acyclic.evaluate_of_found found, acyclicToo.evaluate_of_found foundToo]
        apply number_nodeTree_congr
        intro operand isOperand
        rw [← evaluateAlong_eq_number, ← evaluateAlong_eq_number]
        exact operands operand (uses_of_mem_operands found isOperand)
          (acyclicToo.of_uses (uses_of_mem_operands foundToo isOperand))

theorem expression?_setExpression_of_ne {target : ExpressionId} (apart : id ≠ target)
    (program : Program) (node : Option Expression) :
    (program.setExpression target node).expression? id = program.expression? id := by
  have elsewhere : Part.expression id ≠ (Write.expression target node).part :=
    fun same => apart (Part.expression.inj same)
  exact (program.sameAt_applyTo elsewhere).symm

/-- Where no circle can be reached, evaluation is the plain recursion over the nodes: its rules
lead to the number of the expression and to no other one, an operator is applied to the numbers
of its operands, each taken on its own, and an expression that is exchanged for one of the same
number, without closing a circle, changes nothing above it. -/
theorem acyclic_evaluation_is_compositional (program : Program) (root : ExpressionId)
    (acyclic : program.AcyclicBelow root) (bindings : Bindings) :
    (∀ value, program.HasNumber bindings root value ↔ value = program.evaluate bindings root) ∧
      (∀ id, Relation.ReflTransGen program.Uses root id →
        (∀ operator left right, program.expression? id = some (.binary operator left right) →
          program.evaluate bindings id =
            operator.apply (program.evaluate bindings left) (program.evaluate bindings right)) ∧
        ∀ operand, program.expression? id = some (.negate operand) →
          program.evaluate bindings id =
            truth (!isTruthy (program.evaluate bindings operand))) ∧
      ∀ target node, Relation.ReflTransGen program.Uses root target →
        (program.setExpression target node).AcyclicBelow root →
        (program.setExpression target node).evaluate bindings target =
          program.evaluate bindings target →
        (program.setExpression target node).evaluate bindings root =
          program.evaluate bindings root := by
  refine ⟨?_, ?_, ?_⟩
  · intro value
    have number := acyclic.hasNumber bindings
    constructor
    · exact fun isNumber => isNumber.unique number
    · rintro rfl
      exact number
  · intro id reaches
    have below := acyclic.of_reaches reaches
    exact ⟨fun operator left right => below.evaluate_binary, fun operand => below.evaluate_negate⟩
  · intro target node _ acyclicToo agrees
    refine evaluate_eq_of_agrees_elsewhere acyclicToo acyclic ?_ agrees
    exact fun id apart => expression?_setExpression_of_ne apart program node

/-- Twice one comparison, of a variable with a hole, and beside it a negation that nothing
leads to. -/
def doubledComparison : Program where
  statements := Arena.empty
  expressions := Arena.ofEntries
    [("0", .binary (.arithmetic .add) "1" "1"), ("1", .binary (.comparison .less) "2" "3"),
      ("2", .read "x"), ("4", .negate "5"), ("5", .constant (-3.5))]
  lists := Arena.empty
  statementCount := 0
  expressionCount := 6
  listCount := 0

def comparisonRank (id : ExpressionId) : Nat :=
  if id = "0" then 3 else if id = "1" then 2 else if id = "4" then 1 else 0

theorem doubledComparison_acyclic : doubledComparison.AcyclicBelow "0" :=
  @acyclicBelow_of_falls _ comparisonRank (by decide +kernel) "0"

/-- At its start value the variable is not below the hole.  So the comparison may be exchanged
for a conjunction whose number is zero as well, on both sides of the sum at once. -/
theorem doubledComparison_exchanged :
    doubledComparison.AcyclicBelow "0" ∧
      (doubledComparison.setExpression "1" (some (.binary (.logic .both) "4" "2"))).AcyclicBelow
        "0" ∧
      (doubledComparison.setExpression "1" (some (.binary (.logic .both) "4" "2"))).evaluate
        .seeded "0" = doubledComparison.evaluate .seeded "0" := by
  have acyclicToo :
      (doubledComparison.setExpression "1" (some (.binary (.logic .both) "4" "2"))).AcyclicBelow
        "0" :=
    @acyclicBelow_of_falls _ comparisonRank (by decide +kernel) "0"
  have found : doubledComparison.expression? "0" = some (.binary (.arithmetic .add) "1" "1") := rfl
  have reaches : Relation.ReflTransGen doubledComparison.Uses "0" "1" :=
    .single (uses_of_mem_operands found (by decide))
  obtain ⟨-, -, exchanged⟩ :=
    acyclic_evaluation_is_compositional doubledComparison "0" doubledComparison_acyclic .seeded
  exact ⟨doubledComparison_acyclic, acyclicToo,
    exchanged "1" _ reaches acyclicToo (by decide +kernel)⟩

end Program

end BlockStage

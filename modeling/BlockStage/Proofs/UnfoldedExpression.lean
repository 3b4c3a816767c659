import BlockStage.Proofs.ExpressionTree
import Mathlib.Data.Finset.Basic

/-!
# Evaluation is the number of the unfolded tree

The graph of the expressions below an identifier is unfolded into a tree by rules that look at
nothing but the way from the root: an identifier without a node is a leaf, one that stands
above itself is a leaf, and every other one is expanded in full, whether or not it occurs
elsewhere in the tree.  There is exactly one such tree, and the number of an expression is the
number of its tree.

A machine that evaluates the graph in place does not carry the way from the root with it.  It
keeps one set of open identifiers, to which it adds an identifier when it enters its node and
from which it takes it when it leaves.  The same set serves both operands of an operator, so
the second operand would be cut at the wrong places if the first one left the set changed.
The rules of this machine are written down as well: from every set and every identifier they
lead to one result, and the set comes back as it was.
-/

namespace BlockStage

namespace Program

/-- The tree of an expression below its ancestors. -/
inductive Unfolds (program : Program) :
    List ExpressionId → ExpressionId → ExpressionTree → Prop where
  | hole {ancestors : List ExpressionId} {id : ExpressionId} :
      program.expression? id = none → Unfolds program ancestors id .hole
  | cut {ancestors : List ExpressionId} {id : ExpressionId} {node : Expression} :
      program.expression? id = some node → id ∈ ancestors → Unfolds program ancestors id .cut
  | constant {ancestors : List ExpressionId} {id : ExpressionId} {value : Float} :
      program.expression? id = some (.constant value) → id ∉ ancestors →
      Unfolds program ancestors id (.constant value)
  | read {ancestors : List ExpressionId} {id : ExpressionId} {name : String} :
      program.expression? id = some (.read name) → id ∉ ancestors →
      Unfolds program ancestors id (.read name)
  | negate {ancestors : List ExpressionId} {id operand : ExpressionId} {tree : ExpressionTree} :
      program.expression? id = some (.negate operand) → id ∉ ancestors →
      Unfolds program (id :: ancestors) operand tree →
      Unfolds program ancestors id (.negate tree)
  | binary {ancestors : List ExpressionId} {id left right : ExpressionId} {operator : Operator}
      {leftTree rightTree : ExpressionTree} :
      program.expression? id = some (.binary operator left right) → id ∉ ancestors →
      Unfolds program (id :: ancestors) left leftTree →
      Unfolds program (id :: ancestors) right rightTree →
      Unfolds program ancestors id (.binary operator leftTree rightTree)

/-- Evaluation in place: from a set of open identifiers an expression leads to its number and
to the set of identifiers that are open afterwards. -/
inductive Evaluates (program : Program) (bindings : Bindings) :
    Finset ExpressionId → ExpressionId → Float → Finset ExpressionId → Prop where
  | hole {opened : Finset ExpressionId} {id : ExpressionId} :
      program.expression? id = none → Evaluates program bindings opened id 0 opened
  | closing {opened : Finset ExpressionId} {id : ExpressionId} {node : Expression} :
      program.expression? id = some node → id ∈ opened →
      Evaluates program bindings opened id 0 opened
  | constant {opened : Finset ExpressionId} {id : ExpressionId} {value : Float} :
      program.expression? id = some (.constant value) → id ∉ opened →
      Evaluates program bindings opened id value ((insert id opened).erase id)
  | read {opened : Finset ExpressionId} {id : ExpressionId} {name : String} :
      program.expression? id = some (.read name) → id ∉ opened →
      Evaluates program bindings opened id ((bindings.get? name).getD Binary64.nan)
        ((insert id opened).erase id)
  | negate {opened closed : Finset ExpressionId} {id operand : ExpressionId} {value : Float} :
      program.expression? id = some (.negate operand) → id ∉ opened →
      Evaluates program bindings (insert id opened) operand value closed →
      Evaluates program bindings opened id (truth (!isTruthy value)) (closed.erase id)
  | binary {opened middle closed : Finset ExpressionId} {id left right : ExpressionId}
      {operator : Operator} {leftValue rightValue : Float} :
      program.expression? id = some (.binary operator left right) → id ∉ opened →
      Evaluates program bindings (insert id opened) left leftValue middle →
      Evaluates program bindings middle right rightValue closed →
      Evaluates program bindings opened id (operator.apply leftValue rightValue)
        (closed.erase id)

variable {program : Program} {bindings : Bindings}

/-! ### The tree -/

theorem unfolds_treeAlong (program : Program) (ancestors : List ExpressionId)
    (id : ExpressionId) : program.Unfolds ancestors id (program.treeAlong ancestors id) := by
  induction ancestors, id using program.walk_induction with
  | hole ancestors id missing =>
      rw [treeAlong_of_hole missing]
      exact .hole missing
  | visited ancestors id node found seen =>
      rw [treeAlong_of_visited found seen]
      exact .cut found seen
  | entered ancestors id node found unseen ih =>
      rw [treeAlong_of_found found unseen]
      cases node with
      | constant value => exact .constant found unseen
      | read name => exact .read found unseen
      | negate operand => exact .negate found unseen (ih operand (by simp [Expression.operands]))
      | binary operator left right =>
          exact .binary found unseen (ih left (by simp [Expression.operands]))
            (ih right (by simp [Expression.operands]))

theorem Unfolds.eq_treeAlong {ancestors : List ExpressionId} {id : ExpressionId}
    {tree : ExpressionTree} (unfolds : program.Unfolds ancestors id tree) :
    tree = program.treeAlong ancestors id := by
  induction unfolds with
  | hole missing => rw [treeAlong_of_hole missing]
  | cut found seen => rw [treeAlong_of_visited found seen]
  | constant found unseen => rw [treeAlong_of_found found unseen, nodeTree]
  | read found unseen => rw [treeAlong_of_found found unseen, nodeTree]
  | negate found unseen _ ih => rw [treeAlong_of_found found unseen, nodeTree, ih]
  | binary found unseen _ _ ihLeft ihRight =>
      rw [treeAlong_of_found found unseen, nodeTree, ihLeft, ihRight]

theorem existsUnique_unfolds (program : Program) (ancestors : List ExpressionId)
    (id : ExpressionId) : ∃! tree, program.Unfolds ancestors id tree :=
  ⟨program.treeAlong ancestors id, unfolds_treeAlong program ancestors id,
    fun _ unfolds => unfolds.eq_treeAlong⟩

/-! ### Evaluation in place -/

theorem Evaluates.closed_eq {opened closed : Finset ExpressionId} {id : ExpressionId}
    {value : Float} (evaluates : program.Evaluates bindings opened id value closed) :
    closed = opened := by
  induction evaluates with
  | hole _ => rfl
  | closing _ _ => rfl
  | constant _ unseen => exact Finset.erase_insert unseen
  | read _ unseen => exact Finset.erase_insert unseen
  | negate _ unseen _ ih =>
      rw [ih]
      exact Finset.erase_insert unseen
  | binary _ unseen _ _ ihLeft ihRight =>
      rw [ihRight, ihLeft]
      exact Finset.erase_insert unseen

/-- The set of open identifiers holds those of the way from the root. -/
def Opens (ancestors : List ExpressionId) (opened : Finset ExpressionId) : Prop :=
  ∀ other, other ∈ ancestors ↔ other ∈ opened

theorem Opens.cons {ancestors : List ExpressionId} {opened : Finset ExpressionId}
    (opens : Opens ancestors opened) (id : ExpressionId) :
    Opens (id :: ancestors) (insert id opened) := by
  intro other
  rw [List.mem_cons, Finset.mem_insert, opens other]

/-- The result of an evaluation in place is the number of the tree below the open
identifiers.  The right operand is cut where the left one was, since that one has put the set
back. -/
theorem Evaluates.eq_number {opened closed : Finset ExpressionId} {id : ExpressionId}
    {value : Float} (evaluates : program.Evaluates bindings opened id value closed)
    {ancestors : List ExpressionId} (opens : Opens ancestors opened) {tree : ExpressionTree}
    (unfolds : program.Unfolds ancestors id tree) : value = tree.number bindings := by
  rw [unfolds.eq_treeAlong]
  clear unfolds
  induction evaluates generalizing ancestors with
  | hole missing =>
      rw [treeAlong_of_hole missing]
      rfl
  | closing found isOpen =>
      rw [treeAlong_of_visited found ((opens _).mpr isOpen)]
      rfl
  | constant found unopened =>
      rw [treeAlong_of_found found (mt (opens _).mp unopened)]
      rfl
  | read found unopened =>
      rw [treeAlong_of_found found (mt (opens _).mp unopened)]
      rfl
  | negate found unopened _ ih =>
      rw [treeAlong_of_found found (mt (opens _).mp unopened), ih (opens.cons _)]
      rfl
  | @binary opened middle closed id left right operator leftValue rightValue found unopened
      evaluatesLeft _ ihLeft ihRight =>
      have opensRight : Opens (id :: ancestors) middle := by
        rw [evaluatesLeft.closed_eq]
        exact opens.cons id
      rw [treeAlong_of_found found (mt (opens _).mp unopened), ihLeft (opens.cons id),
        ihRight opensRight]
      rfl

theorem Evaluates.restored {opened closed : Finset ExpressionId} {id : ExpressionId}
    {value : Float} (evaluates : program.Evaluates bindings opened id value closed) :
    program.Evaluates bindings opened id value opened :=
  evaluates.closed_eq ▸ evaluates

/-- Evaluation in place comes to an end from every set of open identifiers. -/
theorem exists_evaluates (program : Program) (bindings : Bindings)
    {ancestors : List ExpressionId} {opened : Finset ExpressionId}
    (opens : Opens ancestors opened) (id : ExpressionId) :
    ∃ value, program.Evaluates bindings opened id value opened := by
  induction ancestors, id using program.walk_induction generalizing opened with
  | hole ancestors id missing => exact ⟨0, .hole missing⟩
  | visited ancestors id node found seen => exact ⟨0, .closing found ((opens id).mp seen)⟩
  | entered ancestors id node found unseen ih =>
      have unopened : id ∉ opened := mt (opens id).mpr unseen
      cases node with
      | constant value => exact ⟨value, (Evaluates.constant found unopened).restored⟩
      | read name => exact ⟨_, (Evaluates.read found unopened).restored⟩
      | negate operand =>
          obtain ⟨value, inner⟩ := ih operand (by simp [Expression.operands]) (opens.cons id)
          exact ⟨_, (Evaluates.negate found unopened inner).restored⟩
      | binary operator left right =>
          obtain ⟨leftValue, innerLeft⟩ :=
            ih left (by simp [Expression.operands]) (opens.cons id)
          obtain ⟨rightValue, innerRight⟩ :=
            ih right (by simp [Expression.operands]) (opens.cons id)
          exact ⟨_, (Evaluates.binary found unopened innerLeft innerRight).restored⟩

theorem evaluate_eq_number {id : ExpressionId} {tree : ExpressionTree}
    (unfolds : program.Unfolds [] id tree) :
    program.evaluate bindings id = tree.number bindings := by
  rw [evaluate, evaluateAlong_eq_number, unfolds.eq_treeAlong]

/-- The number of an expression is the number of its tree, which is the only one that the rules
of unfolding give.  Evaluation in place, from any set of open identifiers, comes to an end,
gives the number of the tree below these identifiers and leaves the set exactly as it was; so
from no open identifiers it gives the number of the expression. -/
theorem evaluate_is_number_of_unfolding (program : Program) (bindings : Bindings) :
    (∀ ancestors id, ∃! tree, program.Unfolds ancestors id tree) ∧
      (∀ id tree, program.Unfolds [] id tree →
        program.evaluate bindings id = tree.number bindings) ∧
      (∀ opened id, ∃ value, program.Evaluates bindings opened id value opened) ∧
      (∀ opened id value closed, program.Evaluates bindings opened id value closed →
        closed = opened ∧
          ∀ ancestors tree, Opens ancestors opened → program.Unfolds ancestors id tree →
            value = tree.number bindings) ∧
      ∀ id value closed, program.Evaluates bindings ∅ id value closed ↔
        value = program.evaluate bindings id ∧ closed = ∅ := by
  have opensEmpty : Opens [] ∅ := by simp [Opens]
  refine ⟨existsUnique_unfolds program, ?_, ?_, ?_, ?_⟩
  · exact fun id tree unfolds => evaluate_eq_number unfolds
  · intro opened id
    have opens : Opens opened.toList opened := fun other => Finset.mem_toList
    exact exists_evaluates program bindings opens id
  · intro opened id value closed evaluates
    exact ⟨evaluates.closed_eq, fun ancestors tree opens => evaluates.eq_number opens⟩
  · intro id value closed
    have unfolds := unfolds_treeAlong program [] id
    constructor
    · intro evaluates
      refine ⟨?_, evaluates.closed_eq⟩
      rw [evaluates.eq_number opensEmpty unfolds, evaluate_eq_number unfolds]
    · rintro ⟨rfl, rfl⟩
      obtain ⟨value, evaluates⟩ := exists_evaluates program bindings opensEmpty id
      rw [evaluate_eq_number unfolds, ← evaluates.eq_number opensEmpty unfolds]
      exact evaluates

end Program

end BlockStage

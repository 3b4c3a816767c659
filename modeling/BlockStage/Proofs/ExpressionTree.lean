import BlockStage.Evaluation
import BlockStage.Outline
import BlockStage.Proofs.ProgramParts

/-!
# Expressions written out

The expressions of a program share operands and may lead back to themselves.
Written out, an expression is a finite tree: a shared operand stands wherever it
is used, and a way down is cut where it meets an expression it came through.
The number of an expression and its text are both read off this one tree, so
they are cut at the same places, and the tree depends on nothing but what the
expression leads to.
-/

namespace BlockStage

/-- An expression with its operands in place. -/
inductive ExpressionTree where
  /-- An identifier without a node. -/
  | hole
  /-- An expression met again below itself. -/
  | cut
  | constant (value : Float)
  | read (name : String)
  | negate (operand : ExpressionTree)
  | binary (operator : Operator) (left right : ExpressionTree)

namespace ExpressionTree

def number (bindings : Bindings) : ExpressionTree → Float
  | .hole => 0
  | .cut => 0
  | .constant value => value
  | .read name => (bindings.get? name).getD Binary64.nan
  | .negate operand => truth (!isTruthy (operand.number bindings))
  | .binary operator left right =>
      operator.apply (left.number bindings) (right.number bindings)

def text : ExpressionTree → String
  | .hole => "_"
  | .cut => "..."
  | .constant value => shownNumber value
  | .read name => name
  | .negate operand => "not " ++ operand.text
  | .binary operator left right =>
      "(" ++ left.text ++ " " ++ operator.symbol ++ " " ++ right.text ++ ")"

def names : ExpressionTree → List String
  | .hole => []
  | .cut => []
  | .constant _ => []
  | .read name => [name]
  | .negate operand => operand.names
  | .binary _ left right => left.names ++ right.names

end ExpressionTree

namespace Program

/-- The tree of an expression that was reached along a path of expressions. -/
def treeAlong (program : Program) (path : List ExpressionId) (id : ExpressionId) :
    ExpressionTree :=
  match found : program.expression? id with
  | none => .hole
  | some node =>
      if visited : id ∈ path then .cut
      else
        have : program.expressions.unvisited (id :: path) < program.expressions.unvisited path :=
          Arena.unvisited_cons_lt (Arena.mem_keys_of_find? found) visited
        match node with
        | .constant value => .constant value
        | .read name => .read name
        | .negate operand => .negate (program.treeAlong (id :: path) operand)
        | .binary operator left right =>
            .binary operator (program.treeAlong (id :: path) left)
              (program.treeAlong (id :: path) right)
termination_by program.expressions.unvisited path

section Unfolding

variable {program : Program} {path : List ExpressionId} {id : ExpressionId}

theorem treeAlong_of_hole (missing : program.expression? id = none) :
    program.treeAlong path id = .hole := by
  rw [treeAlong]
  split
  · rfl
  · simp_all

theorem treeAlong_of_visited {node : Expression} (found : program.expression? id = some node)
    (visited : id ∈ path) : program.treeAlong path id = .cut := by
  rw [treeAlong]
  split
  · simp_all
  · rw [dif_pos visited]

/-- What a node becomes in a tree, once its operands are written out. -/
def nodeTree (operandTree : ExpressionId → ExpressionTree) : Expression → ExpressionTree
  | .constant value => .constant value
  | .read name => .read name
  | .negate operand => .negate (operandTree operand)
  | .binary operator left right => .binary operator (operandTree left) (operandTree right)

theorem treeAlong_of_found {node : Expression} (found : program.expression? id = some node)
    (unseen : id ∉ path) :
    program.treeAlong path id = nodeTree (program.treeAlong (id :: path)) node := by
  rw [treeAlong]
  split
  · simp_all
  · rename_i other foundToo
    obtain rfl : node = other := Option.some.inj (found.symm.trans foundToo)
    rw [dif_neg unseen]
    cases node <;> rfl

end Unfolding

/-- To show something of every expression along every path, it is enough to show it of holes, of
expressions on the path, and of a node whose operands have it along the longer path. -/
theorem walk_induction {program : Program} {motive : List ExpressionId → ExpressionId → Prop}
    (hole : ∀ path id, program.expression? id = none → motive path id)
    (visited : ∀ path id node, program.expression? id = some node → id ∈ path → motive path id)
    (entered : ∀ path id node, program.expression? id = some node → id ∉ path →
      (∀ operand ∈ node.operands, motive (id :: path) operand) → motive path id)
    (path : List ExpressionId) (id : ExpressionId) : motive path id := by
  induction left : program.expressions.unvisited path using Nat.strongRecOn
    generalizing path id with
  | _ count ih =>
    cases found : program.expression? id with
    | none => exact hole path id found
    | some node =>
        by_cases seen : id ∈ path
        · exact visited path id node found seen
        · have fewer : program.expressions.unvisited (id :: path) < count :=
            left ▸ Arena.unvisited_cons_lt (Arena.mem_keys_of_find? found) seen
          exact entered path id node found seen fun operand _ => ih _ fewer (id :: path) operand rfl

theorem evaluateAlong_eq_number (program : Program) (bindings : Bindings)
    (path : List ExpressionId) (id : ExpressionId) :
    program.evaluateAlong bindings path id = (program.treeAlong path id).number bindings := by
  fun_induction program.evaluateAlong bindings path id with
  | case1 path id missing => rw [treeAlong_of_hole missing]; rfl
  | case2 path id node found visited => rw [treeAlong_of_visited found visited]; rfl
  | case3 path id unseen _ value found => rw [treeAlong_of_found found unseen]; rfl
  | case4 path id unseen _ name found => rw [treeAlong_of_found found unseen]; rfl
  | case5 path id unseen _ operand found _ ih =>
      rw [treeAlong_of_found found unseen, ih]
      rfl
  | case6 path id unseen _ operator left right found _ ihLeft ihRight =>
      rw [treeAlong_of_found found unseen, ihLeft, ihRight]
      rfl

theorem expressionTextAlong_eq_text (program : Program) (path : List ExpressionId)
    (id : ExpressionId) :
    program.expressionTextAlong path id = (program.treeAlong path id).text := by
  fun_induction program.expressionTextAlong path id with
  | case1 path id missing => rw [treeAlong_of_hole missing]; rfl
  | case2 path id node found visited => rw [treeAlong_of_visited found visited]; rfl
  | case3 path id unseen _ value found => rw [treeAlong_of_found found unseen]; rfl
  | case4 path id unseen _ name found => rw [treeAlong_of_found found unseen]; rfl
  | case5 path id unseen _ operand found _ ih =>
      rw [treeAlong_of_found found unseen, ih]
      rfl
  | case6 path id unseen _ operator left right found _ ihLeft ihRight =>
      rw [treeAlong_of_found found unseen, ihLeft, ihRight]
      rfl

/-- A node of a tree is made from its own operands only. -/
theorem nodeTree_congr {node : Expression} {operandTree otherTree : ExpressionId → ExpressionTree}
    (same : ∀ operand ∈ node.operands, operandTree operand = otherTree operand) :
    nodeTree operandTree node = nodeTree otherTree node := by
  cases node with
  | constant value => rfl
  | read name => rfl
  | negate operand => rw [nodeTree, same operand (by simp [Expression.operands]), nodeTree]
  | binary operator left right =>
      rw [nodeTree, same left (by simp [Expression.operands]),
        same right (by simp [Expression.operands]), nodeTree]

/-- Programs that agree on what an expression leads to write it out alike. -/
theorem AgreesBelow.treeAlong_eq {first second : Program} {id : ExpressionId}
    (agrees : first.AgreesBelow second (.expression id)) (path : List ExpressionId) :
    first.treeAlong path id = second.treeAlong path id := by
  have same : first.expression? id = second.expression? id := agrees.here
  induction path, id using first.walk_induction with
  | hole path id missing => rw [treeAlong_of_hole missing, treeAlong_of_hole (same ▸ missing)]
  | visited path id node found seen =>
      rw [treeAlong_of_visited found seen, treeAlong_of_visited (same ▸ found) seen]
  | entered path id node found unseen ih =>
      rw [treeAlong_of_found found unseen, treeAlong_of_found (same ▸ found) unseen]
      apply nodeTree_congr
      intro operand isOperand
      have below := agrees.further (.operand found isOperand)
      exact ih operand isOperand below below.here

theorem AgreesBelow.evaluate_eq {first second : Program} {id : ExpressionId}
    (agrees : first.AgreesBelow second (.expression id)) (bindings : Bindings) :
    first.evaluate bindings id = second.evaluate bindings id := by
  rw [evaluate, evaluate, evaluateAlong_eq_number, evaluateAlong_eq_number, agrees.treeAlong_eq]

theorem mem_names_nodeTree {node : Expression} {operandTree : ExpressionId → ExpressionTree}
    {name : String} (member : name ∈ (nodeTree operandTree node).names) :
    node = .read name ∨ ∃ operand ∈ node.operands, name ∈ (operandTree operand).names := by
  cases node with
  | constant value => cases member
  | read other =>
      obtain rfl : name = other := by simpa [nodeTree, ExpressionTree.names] using member
      exact Or.inl rfl
  | negate operand => exact Or.inr ⟨operand, by simp [Expression.operands], member⟩
  | binary operator left right =>
      rcases List.mem_append.mp member with inLeft | inRight
      · exact Or.inr ⟨left, by simp [Expression.operands], inLeft⟩
      · exact Or.inr ⟨right, by simp [Expression.operands], inRight⟩

/-- Whatever a tree reads, the expression leads to a read of it. -/
theorem reaches_read_of_mem_names {program : Program} {path : List ExpressionId}
    {id : ExpressionId} {name : String} (member : name ∈ (program.treeAlong path id).names) :
    ∃ reader, program.Reaches (.expression id) (.expression reader) ∧
      program.expression? reader = some (.read name) := by
  induction path, id using program.walk_induction with
  | hole path id missing =>
      rw [treeAlong_of_hole missing] at member
      cases member
  | visited path id node found seen =>
      rw [treeAlong_of_visited found seen] at member
      cases member
  | entered path id node found unseen ih =>
      rw [treeAlong_of_found found unseen] at member
      rcases mem_names_nodeTree member with rfl | ⟨operand, isOperand, below⟩
      · exact ⟨id, .refl, found⟩
      · obtain ⟨reader, reaches, reads⟩ := ih operand isOperand below
        exact ⟨reader, .head (.operand found isOperand) reaches, reads⟩

end Program

end BlockStage

import BlockStage.Program.Basic
import Mathlib.Logic.Relation

/-!
# The parts of a program

A program is a graph.  Its parts are lists, statements and expressions, and a
part refers to another one by its identifier, whether something is stored there
or not.  Two programs may agree on all that can be reached from one part and
have nothing else in common.
-/

namespace BlockStage

/-- An identifier together with the table that it belongs to. -/
inductive Part where
  | list (id : ListId)
  | statement (id : StatementId)
  | expression (id : ExpressionId)
deriving DecidableEq

namespace Program

/-- A list refers to its statements, a statement to its bodies and its expressions, and an
expression to its operands. -/
inductive Refers (program : Program) : Part → Part → Prop where
  | item {list : ListId} {statement : StatementId} :
      statement ∈ program.listOrEmpty list → Refers program (.list list) (.statement statement)
  | body {statement : StatementId} {node : Statement} {body : ListId} :
      program.statement? statement = some node → body ∈ node.bodies →
      Refers program (.statement statement) (.list body)
  | slot {statement : StatementId} {node : Statement} {expression : ExpressionId} :
      program.statement? statement = some node → expression ∈ node.expressions →
      Refers program (.statement statement) (.expression expression)
  | operand {expression : ExpressionId} {node : Expression} {operand : ExpressionId} :
      program.expression? expression = some node → operand ∈ node.operands →
      Refers program (.expression expression) (.expression operand)

/-- One part leads to another, in any number of references. -/
def Reaches (program : Program) : Part → Part → Prop :=
  Relation.ReflTransGen program.Refers

/-- Two programs have the same stored under an identifier, or both have nothing there.  A list
that is missing is taken for an empty one. -/
def SameAt (first second : Program) : Part → Prop
  | .list id => first.listOrEmpty id = second.listOrEmpty id
  | .statement id => first.statement? id = second.statement? id
  | .expression id => first.expression? id = second.expression? id

/-- Two programs agree on everything that a part leads to in the first of them. -/
def AgreesBelow (first second : Program) (root : Part) : Prop :=
  ∀ part, first.Reaches root part → first.SameAt second part

namespace AgreesBelow

variable {first second : Program} {root part : Part}

theorem here (agrees : first.AgreesBelow second root) : first.SameAt second root :=
  agrees root .refl

theorem further (agrees : first.AgreesBelow second root) (refers : first.Refers root part) :
    first.AgreesBelow second part :=
  fun other reaches => agrees other (.head refers reaches)

end AgreesBelow

/-! ### Collections of parts that nothing leads out of -/

/-- The parts that a part refers to. -/
def references (program : Program) : Part → List Part
  | .list id => (program.listOrEmpty id).map .statement
  | .statement id =>
      (program.statement? id).toList.flatMap fun node =>
        node.bodies.map .list ++ node.expressions.map .expression
  | .expression id =>
      (program.expression? id).toList.flatMap fun node => node.operands.map .expression

theorem Refers.mem_references {program : Program} {part other : Part}
    (refers : program.Refers part other) : other ∈ program.references part := by
  cases refers with
  | item member => exact List.mem_map_of_mem member
  | body found isBody => simp [references, found, isBody]
  | slot found isSlot => simp [references, found, isSlot]
  | operand found isOperand => simp [references, found, isOperand]

/-- What a part leads to is in every collection that holds the part and what its members refer
to. -/
theorem Reaches.mem_of_closed {program : Program} {root part : Part} {parts : List Part}
    (reaches : program.Reaches root part) (rooted : root ∈ parts)
    (closed : ∀ part ∈ parts, ∀ other ∈ program.references part, other ∈ parts) :
    part ∈ parts := by
  induction reaches with
  | refl => exact rooted
  | tail _ refers ih => exact closed _ ih _ refers.mem_references

/-! ### Writing to detached parts -/

/-- A change of one table entry: something is stored there, or what was stored is removed. -/
inductive Write where
  | list (id : ListId) (items : Option (List StatementId))
  | statement (id : StatementId) (node : Option Statement)
  | expression (id : ExpressionId) (node : Option Expression)

namespace Write

def part : Write → Part
  | .list id _ => .list id
  | .statement id _ => .statement id
  | .expression id _ => .expression id

def applyTo (write : Write) (program : Program) : Program :=
  match write with
  | .list id items => { program with lists := program.lists.set id items }
  | .statement id node => program.setStatement id node
  | .expression id node => program.setExpression id node

end Write

theorem sameAt_applyTo (program : Program) {write : Write} {other : Part}
    (elsewhere : other ≠ write.part) : program.SameAt (write.applyTo program) other := by
  have untouched {α : Type} (arena : Arena α) (id key : String) (value : Option α)
      (differs : key ≠ id) : (arena.set id value).find? key = arena.find? key := by
    cases value with
    | none => simp [Arena.set, Arena.find?_erase, differs]
    | some value => simp [Arena.set, Arena.find?_insert, differs]
  cases write with
  | list id items =>
      cases other with
      | list key =>
          have differs : key ≠ id := fun same => elsewhere (same ▸ rfl)
          simp [SameAt, Write.applyTo, listOrEmpty, list?, untouched _ _ _ _ differs]
      | statement key => rfl
      | expression key => rfl
  | statement id node =>
      cases other with
      | list key => rfl
      | statement key =>
          have differs : key ≠ id := fun same => elsewhere (same ▸ rfl)
          exact (untouched _ _ _ _ differs).symm
      | expression key => rfl
  | expression id node =>
      cases other with
      | list key => rfl
      | statement key => rfl
      | expression key =>
          have differs : key ≠ id := fun same => elsewhere (same ▸ rfl)
          exact (untouched _ _ _ _ differs).symm

/-- The program after a row of changes. -/
def rewritten (program : Program) (writes : List Write) : Program :=
  writes.foldl (fun changed write => write.applyTo changed) program

theorem SameAt.trans {first second third : Program} {part : Part}
    (left : first.SameAt second part) (right : second.SameAt third part) :
    first.SameAt third part := by
  cases part <;> exact Eq.trans left right

theorem sameAt_rewritten (program : Program) {writes : List Write} {other : Part}
    (elsewhere : ∀ write ∈ writes, other ≠ write.part) :
    program.SameAt (program.rewritten writes) other := by
  induction writes generalizing program with
  | nil => cases other <;> rfl
  | cons write later ih =>
      have first := program.sameAt_applyTo (elsewhere write List.mem_cons_self)
      have rest := ih (write.applyTo program) fun next member =>
        elsewhere next (List.mem_cons_of_mem write member)
      exact first.trans rest

theorem AgreesBelow.rewritten {first second : Program} {root : Part}
    (agrees : first.AgreesBelow second root) {writes : List Write}
    (detached : ∀ write ∈ writes, ¬ first.Reaches root write.part) :
    first.AgreesBelow (second.rewritten writes) root := by
  intro part reaches
  apply (agrees part reaches).trans
  apply sameAt_rewritten
  rintro write member rfl
  exact detached write member reaches

end Program

end BlockStage

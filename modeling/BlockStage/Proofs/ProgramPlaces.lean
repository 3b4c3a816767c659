import BlockStage.Proofs.EditSession

/-! # Where a program names its parts

A program names its statements at the positions of its lists, its lists as the bodies of its
statements, and its expressions in statements and in the operands of other expressions.  For
each edit this file says which of these places are new, which are gone, and that all others
name what they named before.
-/

namespace BlockStage

/-- A place at which a program names an expression. -/
inductive ExpressionPlace where
  | inStatement (statement : StatementId) (slot : Nat)
  | inExpression (expression : ExpressionId) (slot : Nat)
deriving DecidableEq

namespace Program

def statementAt? (program : Program) (list : ListId) (index : Nat) : Option StatementId :=
  (program.list? list).bind (·[index]?)

/-- The list that is one of the bodies of a statement. -/
def bodyAt? (program : Program) (statement : StatementId) (slot : Nat) : Option ListId :=
  (program.statement? statement).bind (·.bodies[slot]?)

def expressionAt? (program : Program) : ExpressionPlace → Option ExpressionId
  | .inStatement statement slot => (program.statement? statement).bind (·.expressions[slot]?)
  | .inExpression expression slot => (program.expression? expression).bind (·.operands[slot]?)

variable {program after : Program}

theorem statementAt?_eq_some_iff {list : ListId} {index : Nat} {statement : StatementId} :
    program.statementAt? list index = some statement ↔
      ∃ items, program.list? list = some items ∧ items[index]? = some statement :=
  Option.bind_eq_some_iff

theorem bodyAt?_eq_some_iff {statement : StatementId} {slot : Nat} {body : ListId} :
    program.bodyAt? statement slot = some body ↔
      ∃ node, program.statement? statement = some node ∧ node.bodies[slot]? = some body :=
  Option.bind_eq_some_iff

theorem expressionAt?_inExpression_iff {expression operand : ExpressionId} {slot : Nat} :
    program.expressionAt? (.inExpression expression slot) = some operand ↔
      ∃ node, program.expression? expression = some node ∧ node.operands[slot]? = some operand :=
  Option.bind_eq_some_iff

end Program

/-! ### Adding a statement -/

namespace Added

variable {program after : Program} {list : ListId} {id : StatementId} {node : Statement}

theorem statement?_eq_none (added : Added program list id node after) :
    program.statement? id = none :=
  (Arena.find?_eq_none_iff _ _).mpr (added.tookStatement.fresh id List.mem_cons_self)

theorem list?_eq_none (added : Added program list id node after) {body : ListId}
    (isBody : body ∈ node.bodies) : program.list? body = none :=
  (Arena.find?_eq_none_iff _ _).mpr (added.tookBodies.fresh body isBody)

theorem isSome_statement? (added : Added program list id node after) (other : StatementId) :
    (after.statement? other).isSome ↔ (program.statement? other).isSome ∨ other = id := by
  rw [added.statement?]
  by_cases here : other = id <;> simp [here]

theorem isSome_list? (added : Added program list id node after) (other : ListId) :
    (after.list? other).isSome ↔ (program.list? other).isSome ∨ other ∈ node.bodies := by
  rw [added.list?]
  by_cases here : other = list
  · simp [here, added.listed]
  · by_cases isBody : other ∈ node.bodies <;> simp [here, isBody]

/-- Only the end of the list names a statement that was not named there before. -/
theorem statementAt?_iff (added : Added program list id node after) {items : List StatementId}
    (found : program.list? list = some items) (place : ListId) (index : Nat)
    (statement : StatementId) :
    after.statementAt? place index = some statement ↔
      program.statementAt? place index = some statement ∨
        (place = list ∧ index = items.length ∧ statement = id) := by
  rw [Program.statementAt?, added.list?]
  by_cases here : place = list
  · subst here
    have atEnd : (items ++ [id])[index]? = some statement ↔
        items[index]? = some statement ∨ (index = items.length ∧ statement = id) := by
      grind
    simpa [Program.statementAt?, found] using atEnd
  · by_cases isBody : place ∈ node.bodies
    · simp [Program.statementAt?, here, isBody, added.list?_eq_none isBody]
    · simp [Program.statementAt?, here, isBody]

/-- Only the new statement has bodies that were not there before. -/
theorem bodyAt?_iff (added : Added program list id node after) (statement : StatementId)
    (slot : Nat) (body : ListId) :
    after.bodyAt? statement slot = some body ↔
      program.bodyAt? statement slot = some body ∨
        (statement = id ∧ node.bodies[slot]? = some body) := by
  rw [Program.bodyAt?, added.statement?]
  by_cases here : statement = id
  · simp [Program.bodyAt?, here, added.statement?_eq_none]
  · simp [Program.bodyAt?, here]

/-- Only the new statement names expressions that were not named there before. -/
theorem expressionAt?_iff (added : Added program list id node after) (place : ExpressionPlace)
    (expression : ExpressionId) :
    after.expressionAt? place = some expression ↔
      program.expressionAt? place = some expression ∨
        ∃ slot, place = .inStatement id slot ∧ node.expressions[slot]? = some expression := by
  cases place with
  | inStatement statement slot =>
      rw [Program.expressionAt?, added.statement?]
      by_cases here : statement = id
      · simp [Program.expressionAt?, here, added.statement?_eq_none]
      · simp [Program.expressionAt?, here]
  | inExpression other slot =>
      simp [Program.expressionAt?, Program.expression?, added.expressions]

end Added

/-! ### Changing expressions -/

/-- The node that was stored names its operands, and all other nodes name theirs. -/
theorem Filled.expressionAt?_iff {program after : Program} {id : ExpressionId} {node : Expression}
    (filled : Filled program id node after) (place : ExpressionPlace)
    (expression : ExpressionId) :
    after.expressionAt? place = some expression ↔
      (∃ slot, place = .inExpression id slot ∧ node.operands[slot]? = some expression) ∨
        ((∀ slot, place ≠ .inExpression id slot) ∧
          program.expressionAt? place = some expression) := by
  cases place with
  | inStatement statement slot =>
      simp [Program.expressionAt?, Program.statement?, filled.statements]
  | inExpression other slot =>
      simp only [Program.expressionAt?, Program.expression?, filled.expressions,
        Arena.find?_insert]
      by_cases here : other = id <;> simp [here]

namespace Program

variable {program after : Program}

theorem expressionAt?_clear {id expression : ExpressionId} {place : ExpressionPlace}
    (named : (program.setExpression id none).expressionAt? place = some expression) :
    program.expressionAt? place = some expression := by
  cases place with
  | inStatement statement slot => exact named
  | inExpression other slot =>
      simp only [expressionAt?, expression?, setExpression, Arena.set, Arena.find?_erase] at named
      split at named
      · cases named
      · exact named

/-! ### Renaming and removing -/

section Renaming

variable {statement : StatementId} {old name : String} {value : ExpressionId}

theorem statement?_setStatement (program : Program) (statement : StatementId) (node : Statement)
    (other : StatementId) :
    (program.setStatement statement (some node)).statement? other =
      if other = statement then some node else program.statement? other :=
  Arena.find?_insert _ _ _ _

/-- A renamed assignment has no bodies, as before, and the same expression. -/
theorem bodyAt?_rename (found : program.statement? statement = some (.assign old value))
    (other : StatementId) (slot : Nat) :
    (program.setStatement statement (some (.assign name value))).bodyAt? other slot =
      program.bodyAt? other slot := by
  rw [bodyAt?, statement?_setStatement]
  by_cases here : other = statement
  · simp [bodyAt?, here, found, Statement.bodies]
  · simp [bodyAt?, here]

theorem expressionAt?_rename (found : program.statement? statement = some (.assign old value))
    (place : ExpressionPlace) :
    (program.setStatement statement (some (.assign name value))).expressionAt? place =
      program.expressionAt? place := by
  cases place with
  | inStatement other slot =>
      rw [expressionAt?, statement?_setStatement]
      by_cases here : other = statement
      · simp [expressionAt?, here, found, Statement.expressions]
      · simp [expressionAt?, here]
  | inExpression other slot => rfl

theorem isSome_statement?_rename
    (found : program.statement? statement = some (.assign old value)) (other : StatementId) :
    ((program.setStatement statement (some (.assign name value))).statement? other).isSome =
      (program.statement? other).isSome := by
  rw [statement?_setStatement]
  by_cases here : other = statement <;> simp [here, found]

end Renaming

section Removing

variable {list : ListId} {index : Nat} {statement : StatementId}

theorem removeAt_eq_some (removed : program.removeAt list index = some (statement, after)) :
    ∃ items, program.list? list = some items ∧
      after = { program with lists := program.lists.insert list (items.eraseIdx index) } := by
  unfold removeAt at removed
  split at removed
  · rename_i items found
    split at removed
    · cases removed
      exact ⟨items, found, rfl⟩
    · cases removed
  · cases removed

theorem isSome_list?_removeAt (removed : program.removeAt list index = some (statement, after))
    (other : ListId) : (after.list? other).isSome = (program.list? other).isSome := by
  obtain ⟨items, found, rfl⟩ := removeAt_eq_some removed
  simp only [list?, Arena.find?_insert] at found ⊢
  by_cases here : other = list <;> simp [here, found]

/-- In the list that became shorter, later positions move up by one. -/
theorem statementAt?_removeAt (removed : program.removeAt list index = some (statement, after))
    (place : ListId) (position : Nat) :
    after.statementAt? place position =
      program.statementAt? place
        (if place = list ∧ index ≤ position then position + 1 else position) := by
  obtain ⟨items, found, rfl⟩ := removeAt_eq_some removed
  simp only [statementAt?, list?, Arena.find?_insert] at found ⊢
  by_cases here : place = list
  · subst here
    by_cases behind : index ≤ position
    · simp [found, behind, List.getElem?_eraseIdx, Nat.not_lt.mpr behind]
    · simp [found, behind, List.getElem?_eraseIdx, Nat.not_le.mp behind]
  · simp [here]

end Removing

end Program

end BlockStage

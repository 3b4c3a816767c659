import BlockStage.Program.Basic

/-!
# Growing a program

New identifiers are the decimal renderings of a counter that only ever rises.
Identifiers that a table already uses are passed over, so a counter that lags
behind its table never hands out a taken identifier.  A counter is a 64-bit
word.  Its last value can no longer be passed, and an operation that would have
to pass it stops there, with everything it did before left in place.
-/

namespace BlockStage

/-- The report that an identifier counter stands at its last value. -/
structure CounterExhausted where
deriving DecidableEq

def lastCount : UInt64 := 18446744073709551615

def countId (count : UInt64) : String := toString count.toNat

/-- Takes the first free identifier at or after a counter value.  The second
component is the counter afterwards; without a first component the counter has
reached its last value. -/
def takeId (taken : String → Bool) (count : UInt64) : Option String × UInt64 :=
  if count = lastCount then (none, count)
  else if taken (countId count) then takeId taken (count + 1)
  else (some (countId count), count + 1)
termination_by UInt64.size - count.toNat
decreasing_by
  rename_i notLast _
  have bound : count.toNat < UInt64.size := count.toNat_lt
  have differs : count.toNat ≠ 18446744073709551615 := fun equal =>
    notLast (UInt64.toNat_inj.mp equal)
  have next : (count + 1).toNat = count.toNat + 1 := by
    rw [UInt64.toNat_add]
    simp only [UInt64.size] at bound
    simp only [UInt64.toNat_one]
    omega
  simp only [UInt64.size] at bound ⊢
  omega

/-- Operations that take identifiers: they change the program and either give
a result or find a counter exhausted. -/
abbrev Grow := EStateM CounterExhausted Program

namespace Program

/-- Takes a new expression identifier, which stays a hole. -/
def allocateExpression : Grow ExpressionId := fun program =>
  match takeId program.expressions.contains program.expressionCount with
  | (some id, count) => .ok id { program with expressionCount := count }
  | (none, count) => .error ⟨⟩ { program with expressionCount := count }

def allocateStatement : Grow StatementId := fun program =>
  match takeId program.statements.contains program.statementCount with
  | (some id, count) => .ok id { program with statementCount := count }
  | (none, count) => .error ⟨⟩ { program with statementCount := count }

def allocateList : Grow ListId := fun program =>
  match takeId program.lists.contains program.listCount with
  | (some id, count) => .ok id { program with listCount := count }
  | (none, count) => .error ⟨⟩ { program with listCount := count }

def registerStatement (node : Statement) : Grow StatementId := do
  let id ← allocateStatement
  modify fun program => { program with statements := program.statements.insert id node }
  return id

def registerList (items : List StatementId) : Grow ListId := do
  let id ← allocateList
  modify fun program => { program with lists := program.lists.insert id items }
  return id

/-- The variable that new assignments write and new reads look up. -/
def defaultVariable : String := "x"

/-- A default node of the given kind, with new holes for its operands.  The
node itself is not stored. -/
def newExpression : ExpressionKind → Grow Expression
  | .constant => return .constant 0
  | .read => return .read defaultVariable
  | .negate => return .negate (← allocateExpression)
  | .binary operator => do
      let left ← allocateExpression
      let right ← allocateExpression
      return .binary operator left right

/-- A default statement of the given kind, with new holes for its expressions
and new empty lists for its bodies.  The statement itself is not stored. -/
def newStatement : StatementKind → Grow Statement
  | .assign => return .assign defaultVariable (← allocateExpression)
  | .branch => do
      let condition ← allocateExpression
      let thenBody ← registerList []
      let elseBody ← registerList []
      return .branch condition thenBody elseBody
  | .loop => do
      let condition ← allocateExpression
      let body ← registerList []
      return .loop condition body
  | .sleep => return .sleep (← allocateExpression)

end Program

end BlockStage

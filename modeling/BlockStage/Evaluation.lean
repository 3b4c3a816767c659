import BlockStage.Bindings
import BlockStage.Number.Binary64
import BlockStage.Program.Basic

/-!
# The number of an expression

Every expression identifier has a number.  A hole is zero, a variable that is
not bound is not a number, and an expression that is reached again from its own
operands is zero at that place.  Anything but zero counts as true, also what is
not a number; comparisons and logic answer zero or one.  Both operands of an
operator are always evaluated.
-/

namespace BlockStage

def isTruthy (value : Float) : Bool := value != 0

def truth (value : Bool) : Float := if value then 1 else 0

def Arithmetic.apply (left right : Float) : Arithmetic → Float
  | .add => left + right
  | .subtract => left - right
  | .multiply => left * right
  | .divide => left / right
  | .remainder => Binary64.remainder left right

/-- Comparison of doubles; what is not a number is only ever unequal. -/
def Comparison.holds (left right : Float) : Comparison → Bool
  | .equal => left == right
  | .unequal => left != right
  | .less => decide (left < right)
  | .lessOrEqual => decide (left ≤ right)
  | .greater => decide (right < left)
  | .greaterOrEqual => decide (right ≤ left)

def Logic.holds (left right : Float) : Logic → Bool
  | .both => isTruthy left && isTruthy right
  | .either => isTruthy left || isTruthy right

def Operator.apply (operator : Operator) (left right : Float) : Float :=
  match operator with
  | .arithmetic operation => operation.apply left right
  | .comparison relation => truth (relation.holds left right)
  | .logic connective => truth (connective.holds left right)

namespace Program

/-- The number of an expression that was reached along a path of expressions.
Each level extends the path by an identifier of the table that was not on it,
so the descent ends. -/
def evaluateAlong (program : Program) (bindings : Bindings) (path : List ExpressionId)
    (id : ExpressionId) : Float :=
  match found : program.expression? id with
  | none => 0
  | some node =>
      if visited : id ∈ path then 0
      else
        have : program.expressions.unvisited (id :: path) < program.expressions.unvisited path :=
          Arena.unvisited_cons_lt (Arena.mem_keys_of_find? found) visited
        match node with
        | .constant value => value
        | .read name => (bindings.get? name).getD Binary64.nan
        | .negate operand =>
            truth (!isTruthy (program.evaluateAlong bindings (id :: path) operand))
        | .binary operator left right =>
            operator.apply (program.evaluateAlong bindings (id :: path) left)
              (program.evaluateAlong bindings (id :: path) right)
termination_by program.expressions.unvisited path

/-- The number of an expression under the given variables. -/
def evaluate (program : Program) (bindings : Bindings) (id : ExpressionId) : Float :=
  program.evaluateAlong bindings [] id

end Program

end BlockStage

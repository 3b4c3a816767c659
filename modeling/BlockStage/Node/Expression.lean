import BlockStage.Node.Operator

/-!
# Expression nodes

An expression node is a constant, a read of a variable, or an operator whose
operands are named by identifiers.  The identifiers need not lead to a node:
an identifier without a node is a hole that still has to be filled.
-/

namespace BlockStage

abbrev ExpressionId := String

/-- The shape of an expression node, without its contents. -/
inductive ExpressionKind where
  | constant
  | read
  | negate
  | binary (operator : Operator)
deriving DecidableEq

/-- A node of the expression table. -/
inductive Expression where
  | constant (value : Float)
  | read (name : String)
  | negate (operand : ExpressionId)
  | binary (operator : Operator) (left right : ExpressionId)

namespace ExpressionKind

/-- All kinds: the two leaves, the binary operators and negation. -/
def all : List ExpressionKind :=
  [.constant, .read] ++ Operator.all.map .binary ++ [.negate]

/-- The word that names the kind in stored programs and commands. -/
def keyword : ExpressionKind → String
  | .constant => "const"
  | .read => "var"
  | .negate => "not"
  | .binary operator => operator.keyword

def ofKeyword? (word : String) : Option ExpressionKind :=
  all.find? fun kind => kind.keyword == word

def operator? : ExpressionKind → Option Operator
  | .binary operator => some operator
  | _ => none

theorem mem_all (kind : ExpressionKind) : kind ∈ all := by
  cases kind with
  | constant => simp [all]
  | read => simp [all]
  | negate => simp [all]
  | binary operator => simp [all, Operator.mem_all]

end ExpressionKind

namespace Expression

def kind : Expression → ExpressionKind
  | .constant _ => .constant
  | .read _ => .read
  | .negate _ => .negate
  | .binary operator _ _ => .binary operator

def operands : Expression → List ExpressionId
  | .constant _ => []
  | .read _ => []
  | .negate operand => [operand]
  | .binary _ left right => [left, right]

/-- Whether the node is a constant without a place on the number line. -/
def isNonFiniteConstant : Expression → Bool
  | .constant value => !value.isFinite
  | _ => false

/-- Equality of nodes as numbers see it: constants are compared as numbers, so
that a NaN differs from itself and the two zeros agree. -/
def same : Expression → Expression → Bool
  | .constant first, .constant second => first == second
  | .read first, .read second => first == second
  | .negate first, .negate second => first == second
  | .binary firstOperator firstLeft firstRight, .binary secondOperator secondLeft secondRight =>
      firstOperator == secondOperator && firstLeft == secondLeft && firstRight == secondRight
  | _, _ => false

end Expression

end BlockStage

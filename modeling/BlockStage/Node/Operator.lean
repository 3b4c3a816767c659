/-!
# Binary operators

An operator combines the numbers of two operands.  Operators fall into three
groups: arithmetic keeps the number line, comparisons and logic answer a
question with zero or one.  Each has a keyword, which names it in stored
programs and commands, and a symbol, which stands between its operands in the
outline.
-/

namespace BlockStage

/-- Operators whose result is an ordinary number. -/
inductive Arithmetic where
  | add
  | subtract
  | multiply
  | divide
  | remainder
deriving DecidableEq

/-- Operators that compare two numbers. -/
inductive Comparison where
  | equal
  | unequal
  | less
  | lessOrEqual
  | greater
  | greaterOrEqual
deriving DecidableEq

/-- Operators on truth values. -/
inductive Logic where
  | both
  | either
deriving DecidableEq

/-- A binary operator of any of the three groups. -/
inductive Operator where
  | arithmetic (operation : Arithmetic)
  | comparison (relation : Comparison)
  | logic (connective : Logic)
deriving DecidableEq

namespace Operator

def all : List Operator :=
  [.arithmetic .add, .arithmetic .subtract, .arithmetic .multiply, .arithmetic .divide,
    .arithmetic .remainder, .comparison .equal, .comparison .unequal, .comparison .less,
    .comparison .lessOrEqual, .comparison .greater, .comparison .greaterOrEqual,
    .logic .both, .logic .either]

def isBoolean : Operator → Bool
  | .arithmetic _ => false
  | .comparison _ => true
  | .logic _ => true

/-- The word that names the operator in stored programs and commands. -/
def keyword : Operator → String
  | .arithmetic .add => "add"
  | .arithmetic .subtract => "sub"
  | .arithmetic .multiply => "mul"
  | .arithmetic .divide => "div"
  | .arithmetic .remainder => "mod"
  | .comparison .equal => "eq"
  | .comparison .unequal => "neq"
  | .comparison .less => "lt"
  | .comparison .lessOrEqual => "lte"
  | .comparison .greater => "gt"
  | .comparison .greaterOrEqual => "gte"
  | .logic .both => "and"
  | .logic .either => "or"

/-- The sign that stands between the operands in the outline. -/
def symbol : Operator → String
  | .arithmetic .add => "+"
  | .arithmetic .subtract => "-"
  | .arithmetic .multiply => "*"
  | .arithmetic .divide => "/"
  | .arithmetic .remainder => "%"
  | .comparison .equal => "=="
  | .comparison .unequal => "!="
  | .comparison .less => "<"
  | .comparison .lessOrEqual => "<="
  | .comparison .greater => ">"
  | .comparison .greaterOrEqual => ">="
  | .logic .both => "and"
  | .logic .either => "or"

/-- The list of all operators leaves none out. -/
theorem mem_all (operator : Operator) : operator ∈ all := by
  cases operator with
  | arithmetic operation => cases operation <;> decide
  | comparison relation => cases relation <;> decide
  | logic connective => cases connective <;> decide

end Operator

end BlockStage

import BlockStage.Number.Style
import BlockStage.Program.Growth

/-!
# Edits

An edit is what a person does to a program in one go.  It checks its arguments
before it touches anything, in a fixed order, and names the first that is
wrong.  Only an exhausted counter can stop an edit halfway.  Edits that leave
something to be filled in tell which slots are new.
-/

namespace BlockStage

/-- Why an edit was refused. -/
inductive EditError where
  | unknownKind (kind : UnknownKind)
  | unknownList (list : ListId)
  | unknownStatement (statement : StatementId)
  | notAnAssignment (statement : StatementId)
  | indexOutOfRange (list : ListId) (index : Nat)
  | nonFiniteValue (value : Float)
  | counterExhausted

def EditError.message : EditError → String
  | .unknownKind kind => kind.message
  | .unknownList list => "no statement list with id " ++ list
  | .unknownStatement statement => "no statement with id " ++ statement
  | .notAnAssignment statement => "statement " ++ statement ++ " is not an assignment"
  | .indexOutOfRange list index =>
      "list " ++ list ++ " has no item at index " ++ toString index
  | .nonFiniteValue value => "constant value must be finite, got " ++ shownNumber value
  | .counterExhausted => "an identifier counter is exhausted"

/-- The slots that an edit leaves to be filled in. -/
structure Slots where
  expressions : List ExpressionId
  lists : List ListId
deriving DecidableEq

abbrev Edit := EStateM EditError Program

namespace Edit

variable {α : Type}

def grow (growth : Grow α) : Edit α := fun program =>
  match growth program with
  | .ok result program => .ok result program
  | .error _ program => .error .counterExhausted program

def kindOf (parsed : Except UnknownKind α) : Edit α :=
  match parsed with
  | .ok kind => return kind
  | .error unknown => throw (.unknownKind unknown)

/-- Appends a default statement of the named kind to a list. -/
def addStatement (list : ListId) (word : String) : Edit (StatementId × Slots) := do
  let kind ← kindOf (StatementKind.parse word)
  if ((← get).list? list).isNone then throw (.unknownList list)
  let statement ← grow (Program.newStatement kind)
  let id ← grow (Program.registerStatement statement)
  modify fun program => program.append list id
  return (id, ⟨statement.expressions, statement.bodies⟩)

/-- Gives a default node the value or the name that was asked for; other kinds
have no use for them. -/
def adjust (value : Option Float) (name : Option String) : Expression → Expression
  | .constant default => .constant (value.getD default)
  | .read default => .read (name.getD default)
  | node => node

/-- Fills an expression slot with a default node of the named kind. -/
def fillExpression (id : ExpressionId) (word : String) (value : Option Float)
    (name : Option String) : Edit Slots := do
  let kind ← kindOf (ExpressionKind.parse word)
  match value with
  | some number => if !number.isFinite then throw (.nonFiniteValue number)
  | none => pure ()
  let node ← grow (Program.newExpression kind)
  modify fun program => program.setExpression id (some (adjust value name node))
  return ⟨node.operands, []⟩

def clearExpression (id : ExpressionId) : Edit Unit :=
  modify fun program => program.setExpression id none

def rename (statement : StatementId) (name : String) : Edit Unit := do
  match (← get).statement? statement with
  | some (.assign _ value) =>
      modify fun program => program.setStatement statement (some (.assign name value))
  | some _ => throw (.notAnAssignment statement)
  | none => throw (.unknownStatement statement)

/-- Removes one position of a list; the statement itself stays. -/
def remove (list : ListId) (index : Nat) : Edit StatementId := do
  if ((← get).list? list).isNone then throw (.unknownList list)
  match (← get).removeAt list index with
  | some (statement, program) =>
      set program
      return statement
  | none => throw (.indexOutOfRange list index)

end Edit

end BlockStage

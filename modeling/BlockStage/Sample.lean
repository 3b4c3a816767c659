import BlockStage.Program.Growth

/-!
# A sample program

The sample moves the sprite to the right in steps of ten, turns it a little
with every step, lifts it at every fifth step and sleeps in between.
-/

namespace BlockStage

namespace Sample

/-- Fills a slot with a default node of a kind and gives its operand slots. -/
def fill (slot : ExpressionId) (kind : ExpressionKind) : Grow (List ExpressionId) := do
  let node ← Program.newExpression kind
  modify fun program => program.setExpression slot (some node)
  return node.operands

def constant (slot : ExpressionId) (value : Float) : Grow Unit :=
  modify fun program => program.setExpression slot (some (.constant value))

def read (slot : ExpressionId) (name : String) : Grow Unit :=
  modify fun program => program.setExpression slot (some (.read name))

def operands (slots : List ExpressionId) (left right : ExpressionId → Grow Unit) : Grow Unit :=
  match slots with
  | [first, second] => do
      left first
      right second
  | _ => pure ()

def append (list : ListId) (kind : StatementKind) : Grow Statement := do
  let statement ← Program.newStatement kind
  let id ← Program.registerStatement statement
  modify fun program => program.append list id
  return statement

def increment (list : ListId) (name : String) (step : Float) : Grow Unit := do
  let value ← Program.allocateExpression
  let id ← Program.registerStatement (.assign name value)
  modify fun program => program.append list id
  operands (← fill value (.binary (.arithmetic .add))) (read · name) (constant · step)

/-- The condition that a variable is a multiple of a number. -/
def isMultiple (slot : ExpressionId) (name : String) (divisor : Float) : Grow Unit := do
  match ← fill slot (.binary (.comparison .equal)) with
  | [left, right] =>
      constant right 0
      operands (← fill left (.binary (.arithmetic .remainder))) (read · name) (constant · divisor)
  | _ => pure ()

def body (list : ListId) : Grow Unit := do
  increment list "x" 10
  increment list "angle" 15
  match ← append list .branch with
  | .branch condition thenBody _ =>
      isMultiple condition "x" 50
      increment thenBody "y" 20
  | _ => pure ()
  match ← append list .sleep with
  | .sleep duration => constant duration 50
  | _ => pure ()

def build : Grow Unit := do
  match ← append entryList .assign with
  | .assign _ value => constant value 0
  | _ => pure ()
  match ← append entryList .loop with
  | .loop condition list =>
      operands (← fill condition (.binary (.comparison .less))) (read · "x") (constant · 200)
      body list
  | _ => pure ()

end Sample

def sampleProgram : Program :=
  match Sample.build Program.empty with
  | .ok _ program => program
  | .error _ program => program

end BlockStage

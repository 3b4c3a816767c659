import BlockStage.Program.Basic
import BlockStage.Wire.Node

/-!
# Programs as documents

A program is stored as one document: its three tables as objects in table
order, followed by its three counters.  Only finite constants have a written
form, so a program with another constant is refused before anything is written.
Reading takes the tables and counters in any order; a key that a table holds
twice keeps its first place and its last value.
-/

namespace BlockStage

/-- A constant that has no written form. -/
structure NonFiniteConstant where
  expression : ExpressionId
deriving DecidableEq

namespace Program

/-- The first expression, in table order, whose constant is not finite. -/
def firstNonFinite? (program : Program) : Option ExpressionId :=
  (program.expressions.entries.find? fun entry => entry.2.isNonFiniteConstant).map Prod.fst

def tableJson {α : Type} (toJson : α → Json) (table : Arena α) : Json :=
  .object (table.entries.map fun entry => (entry.1, toJson entry.2))

def toJson (program : Program) : Json :=
  .object
    [("stats", tableJson Statement.toJson program.statements),
      ("exprs", tableJson Expression.toJson program.expressions),
      ("statLists", tableJson (fun items => .array (items.map .text)) program.lists),
      ("statCount", .number (.count program.statementCount)),
      ("exprCount", .number (.count program.expressionCount)),
      ("statListCount", .number (.count program.listCount))]

def encode (program : Program) : Except NonFiniteConstant String :=
  match program.firstNonFinite? with
  | some expression => .error ⟨expression⟩
  | none => .ok program.toJson.toText

def encodeIndented (program : Program) : Except NonFiniteConstant String :=
  match program.firstNonFinite? with
  | some expression => .error ⟨expression⟩
  | none => .ok program.toJson.toIndentedText

/-- What has been read of a program. -/
structure Parts where
  statements : Option (Arena Statement) := none
  expressions : Option (Arena Expression) := none
  lists : Option (Arena (List StatementId)) := none
  statementCount : Option UInt64 := none
  expressionCount : Option UInt64 := none
  listCount : Option UInt64 := none

def readTable {α : Type} (value : Reader α) : Reader (Arena α) :=
  Arena.ofEntries <$> Reader.dictionary value

/-- The parts of a program in their order.  Nodes stand three containers deep. -/
def parts : List (Reader.Field Parts) :=
  [{ name := "stats"
     isSet := fun read => read.statements.isSome
     read := fun read => do
      let table ← readTable (Statement.shape.read (Reader.maxRoom - 2))
      return { read with statements := some table } },
    { name := "exprs"
      isSet := fun read => read.expressions.isSome
      read := fun read => do
        let table ← readTable (Expression.shape.read (Reader.maxRoom - 2))
        return { read with expressions := some table } },
    { name := "statLists"
      isSet := fun read => read.lists.isSome
      read := fun read => do
        let table ← readTable (Reader.array Reader.text)
        return { read with lists := some table } },
    { name := "statCount"
      isSet := fun read => read.statementCount.isSome
      read := fun read => do
        let count ← Reader.count
        return { read with statementCount := some count } },
    { name := "exprCount"
      isSet := fun read => read.expressionCount.isSome
      read := fun read => do
        let count ← Reader.count
        return { read with expressionCount := some count } },
    { name := "statListCount"
      isSet := fun read => read.listCount.isSome
      read := fun read => do
        let count ← Reader.count
        return { read with listCount := some count } }]

def ofParts? (read : Parts) : Option Program := do
  return {
    statements := ← read.statements
    expressions := ← read.expressions
    lists := ← read.lists
    statementCount := ← read.statementCount
    expressionCount := ← read.expressionCount
    listCount := ← read.listCount }

def decode (source : String) : Except Fault Program :=
  Reader.run (Reader.record parts {} ofParts?) source

end Program

end BlockStage

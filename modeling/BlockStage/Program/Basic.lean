import BlockStage.Arena
import BlockStage.Node.Statement

/-!
# Programs

A program holds three tables, for statements, expressions and statement lists,
and one counter per table from which new identifiers are taken.  Nothing keeps
the tables consistent with each other: identifiers may lead nowhere, lists may
be shared, and nodes may refer to themselves.  The operations of this file read
and change single entries; those that take new identifiers are in
`BlockStage.Program.Growth`.
-/

namespace BlockStage

/-- The three tables of a program and their identifier counters. -/
structure Program where
  statements : Arena Statement
  expressions : Arena Expression
  lists : Arena (List StatementId)
  statementCount : UInt64
  expressionCount : UInt64
  listCount : UInt64

namespace Program

def empty : Program where
  statements := Arena.empty
  expressions := Arena.empty
  lists := Arena.empty.insert entryList []
  statementCount := 0
  expressionCount := 0
  listCount := 0

def statement? (program : Program) (id : StatementId) : Option Statement :=
  program.statements.find? id

def expression? (program : Program) (id : ExpressionId) : Option Expression :=
  program.expressions.find? id

def list? (program : Program) (id : ListId) : Option (List StatementId) :=
  program.lists.find? id

/-- The statements a walk of the list visits; a missing list has none. -/
def listOrEmpty (program : Program) (id : ListId) : List StatementId :=
  (program.list? id).getD []

def entry (program : Program) : List StatementId :=
  program.listOrEmpty entryList

/-- Fills an expression slot, or turns it back into a hole. -/
def setExpression (program : Program) (id : ExpressionId) (node : Option Expression) : Program :=
  { program with expressions := program.expressions.set id node }

def setStatement (program : Program) (id : StatementId) (node : Option Statement) : Program :=
  { program with statements := program.statements.set id node }

/-- Adds a statement at the end of a list; a missing list stays missing. -/
def append (program : Program) (list : ListId) (statement : StatementId) : Program :=
  match program.list? list with
  | some items => { program with lists := program.lists.insert list (items ++ [statement]) }
  | none => program

/-- Removes one position of a list and tells which statement stood there. -/
def removeAt (program : Program) (list : ListId) (index : Nat) : Option (StatementId × Program) :=
  match program.list? list with
  | some items =>
      match items[index]? with
      | some statement =>
          some (statement, { program with lists := program.lists.insert list (items.eraseIdx index) })
      | none => none
  | none => none

/-- Equality of programs up to the order of table entries. -/
def same (first second : Program) : Bool :=
  first.statements.agreesWith (· == ·) second.statements &&
    first.expressions.agreesWith Expression.same second.expressions &&
    first.lists.agreesWith (· == ·) second.lists &&
    first.statementCount == second.statementCount &&
    first.expressionCount == second.expressionCount &&
    first.listCount == second.listCount

end Program

end BlockStage

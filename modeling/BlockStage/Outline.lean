import BlockStage.Number.Style
import BlockStage.Program.Basic

/-!
# The outline of a program

The outline prints a program as an indented tree of statements with their
expressions in line.  Holes are shown as `_`.  A list that contains itself, or
an expression that is one of its own operands, is shown as `...` where it comes
up again; everything else is shown in full wherever it occurs.
-/

namespace BlockStage

namespace Program

/-- The text of an expression that was reached along a path of expressions. -/
def expressionTextAlong (program : Program) (path : List ExpressionId) (id : ExpressionId) :
    String :=
  match found : program.expression? id with
  | none => "_"
  | some node =>
      if visited : id ∈ path then "..."
      else
        have : program.expressions.unvisited (id :: path) < program.expressions.unvisited path :=
          Arena.unvisited_cons_lt (Arena.mem_keys_of_find? found) visited
        match node with
        | .constant value => shownNumber value
        | .read name => name
        | .negate operand => "not " ++ program.expressionTextAlong (id :: path) operand
        | .binary operator left right =>
            "(" ++ program.expressionTextAlong (id :: path) left ++ " " ++ operator.symbol ++ " " ++
              program.expressionTextAlong (id :: path) right ++ ")"
termination_by program.expressions.unvisited path

def expressionText (program : Program) (id : ExpressionId) : String :=
  program.expressionTextAlong [] id

def indentedLine (depth : Nat) (content : String) : String :=
  String.ofList (List.replicate (2 * depth) ' ') ++ content

/-- The lines of a list that was reached along a path of lists. -/
def listLinesAlong (program : Program) (path : List ListId) (depth : Nat) (id : ListId) :
    List String :=
  match found : program.list? id with
  | none => [indentedLine depth ("<missing list " ++ id ++ ">")]
  | some statements =>
      if visited : id ∈ path then [indentedLine depth "..."]
      else
        have : program.lists.unvisited (id :: path) < program.lists.unvisited path :=
          Arena.unvisited_cons_lt (Arena.mem_keys_of_find? found) visited
        statements.flatMap fun statement =>
          let start := indentedLine depth ("[" ++ statement ++ "] ")
          match program.statement? statement with
          | none => [start ++ "_"]
          | some (.assign name value) =>
              [start ++ name ++ " := " ++ program.expressionText value]
          | some (.branch condition thenBody elseBody) =>
              [start ++ "if " ++ program.expressionText condition ++ " (" ++ thenBody ++ ")"] ++
                program.listLinesAlong (id :: path) (depth + 1) thenBody ++
                [indentedLine depth ("else (" ++ elseBody ++ ")")] ++
                program.listLinesAlong (id :: path) (depth + 1) elseBody
          | some (.loop condition body) =>
              [start ++ "while " ++ program.expressionText condition ++ " (" ++ body ++ ")"] ++
                program.listLinesAlong (id :: path) (depth + 1) body
          | some (.sleep duration) => [start ++ "sleep " ++ program.expressionText duration]
termination_by program.lists.unvisited path

/-- The outline of a program, each line with its line break. -/
def outline (program : Program) : String :=
  String.join ((program.listLinesAlong [] 0 entryList).map (· ++ "\n"))

end Program

end BlockStage

import BlockStage.Node.Expression

/-!
# Statement nodes

A statement assigns a variable, chooses between two bodies, repeats a body or
pauses the run.  Bodies are statement lists named by identifiers; the list a
run starts with has a fixed identifier.
-/

namespace BlockStage

abbrev StatementId := String

abbrev ListId := String

def entryList : ListId := "entry"

/-- The shape of a statement, without its contents. -/
inductive StatementKind where
  | assign
  | branch
  | loop
  | sleep
deriving DecidableEq

/-- A node of the statement table. -/
inductive Statement where
  | assign (name : String) (value : ExpressionId)
  | branch (condition : ExpressionId) (thenBody elseBody : ListId)
  | loop (condition : ExpressionId) (body : ListId)
  | sleep (duration : ExpressionId)
deriving DecidableEq

namespace StatementKind

def all : List StatementKind := [.assign, .branch, .loop, .sleep]

/-- The word that names the kind in stored programs and commands. -/
def keyword : StatementKind → String
  | .assign => "assign"
  | .branch => "if"
  | .loop => "while"
  | .sleep => "sleep"

def ofKeyword? (word : String) : Option StatementKind :=
  all.find? fun kind => kind.keyword == word

theorem mem_all (kind : StatementKind) : kind ∈ all := by
  cases kind <;> decide

end StatementKind

namespace Statement

def kind : Statement → StatementKind
  | .assign _ _ => .assign
  | .branch _ _ _ => .branch
  | .loop _ _ => .loop
  | .sleep _ => .sleep

def expressions : Statement → List ExpressionId
  | .assign _ value => [value]
  | .branch condition _ _ => [condition]
  | .loop condition _ => [condition]
  | .sleep duration => [duration]

def bodies : Statement → List ListId
  | .assign _ _ => []
  | .branch _ thenBody elseBody => [thenBody, elseBody]
  | .loop _ body => [body]
  | .sleep _ => []

end Statement

/-- A keyword that names no kind of the wanted sort. -/
inductive UnknownKind where
  | expression (word : String)
  | statement (word : String)
deriving DecidableEq

def UnknownKind.message : UnknownKind → String
  | .expression word => "unknown expression kind: '" ++ word ++ "'"
  | .statement word => "unknown statement kind: '" ++ word ++ "'"

def ExpressionKind.parse (word : String) : Except UnknownKind ExpressionKind :=
  match ExpressionKind.ofKeyword? word with
  | some kind => .ok kind
  | none => .error (.expression word)

def StatementKind.parse (word : String) : Except UnknownKind StatementKind :=
  match StatementKind.ofKeyword? word with
  | some kind => .ok kind
  | none => .error (.statement word)

end BlockStage

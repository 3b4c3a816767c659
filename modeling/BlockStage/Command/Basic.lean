import BlockStage.Edit
import BlockStage.Files.Tree
import BlockStage.Outline
import BlockStage.Sample
import BlockStage.Store.Connection
import BlockStage.Terminal

/-!
# Commands

A command works on one key of a table of programs.  It reads what is stored,
does its work and writes the table back only when everything went well; a
command that fails leaves the table as it was, unless others have made more of the
table than a table.  Files are read through a
function the caller gives, and a file to be written is part of the reply, as is
a program to be run.
-/

namespace BlockStage

/-- What can be asked of a table of programs. -/
inductive Command where
  /-- Replaces the program by an empty one. -/
  | create
  /-- Prints the program, as an outline or as its document. -/
  | display (json : Bool)
  /-- Stores the program of a file. -/
  | importFrom (file : String)
  /-- Writes the program to a file. -/
  | exportTo (file : String)
  /-- Lists the stored programs. -/
  | listAll
  /-- Deletes the program. -/
  | delete
  /-- Appends a statement to a list. -/
  | addStatement (list : ListId) (kind : String)
  /-- Fills an expression slot. -/
  | fillExpression (id : ExpressionId) (kind : String) (value : Option Float)
      (name : Option String)
  /-- Clears an expression slot. -/
  | clearExpression (id : ExpressionId)
  /-- Changes the variable of an assignment. -/
  | rename (statement : StatementId) (name : String)
  /-- Removes a position of a list. -/
  | remove (list : ListId) (index : Nat)
  /-- Replaces the program by the sample. -/
  | sample
  /-- Runs the program. -/
  | run (format : SnapshotFormat) (settings : DriveSettings)

/-- Why a command fails. -/
inductive CommandError where
  | edit (error : EditError)
  | store (error : StoreError)
  | file (error : FileError)

def CommandError.message : CommandError → String
  | .edit error => error.message
  | .store error => error.message
  | .file error => "I/O error: " ++ error.message

/-- The exit code of a command that fails: storage and files have their own. -/
def CommandError.exitCode : CommandError → Nat
  | .edit _ => 1
  | .store _ => 3
  | .file _ => 3

/-- What a command leads to. -/
inductive Reply (σ : Type := Sheet) where
  /-- The command is done: the connection afterwards, and what is printed. -/
  | done (connection : Connection σ) (output : String)
  /-- A file is to be written; the table stays as it is. -/
  | write (file content : String)
  /-- A program is to be run; the table stays as it is. -/
  | play (program : Program) (format : SnapshotFormat) (settings : DriveSettings)
  /-- The command failed: the connection afterwards, and why. -/
  | failed (connection : Connection σ) (error : CommandError)
  /-- The command is given up in the middle: a counter was exhausted in an edit, or
  a digest cannot be cut for a listing. -/
  | crashed

namespace Command

def slotLines (slots : Slots) : String :=
  String.join (slots.expressions.map fun id => "expr slot " ++ id ++ "\n") ++
    String.join (slots.lists.map fun id => "list " ++ id ++ "\n")

def listedBytes : Nat := 12

/-- The line of a listing, unless the digest would be cut inside a character. -/
def summaryLine? (summary : Summary) : Option String :=
  (String.fromUTF8? (summary.digest.toUTF8.extract 0 listedBytes)).map fun digest =>
    summary.key ++ "\t" ++ digest ++ "\t" ++ toString summary.size ++ " bytes\n"

section Storing

variable {σ : Type}

def onStore {α : Type} (connection : Connection σ) (result : Except StoreError α)
    (next : α → Reply σ) : Reply σ :=
  match result with
  | .ok value => next value
  | .error error => .failed connection (.store error)

variable [RowKeeper σ]

def storing (connection : Connection σ) (key : String) (program : Program) (output : String) :
    Reply σ :=
  onStore connection (connection.save key program) fun connection => .done connection output

/-- Loads the program, edits it, stores it and prints what the edit gives. -/
def editing {α : Type} (connection : Connection σ) (key : String) (edit : Edit α)
    (print : α → String) : Reply σ :=
  onStore connection (connection.holding.loadOrEmpty key) fun program =>
    match edit program with
    | .ok result program => storing connection key program (print result)
    | .error .counterExhausted _ => .crashed
    | .error error _ => .failed connection (.edit error)

def execute (readFile : String → Except FileError String) (connection : Connection σ)
    (key : String) : Command → Reply σ
  | .create =>
      storing connection key Program.empty ("created empty program under " ++ key ++ "\n")
  | .display json =>
      onStore connection (connection.holding.loadOrEmpty key) fun program =>
        if json then
          match program.encodeIndented with
          | .ok content => .done connection (content ++ "\n")
          | .error constant => .failed connection (.store (.nonFinite constant))
        else .done connection program.outline
  | .importFrom file =>
      match readFile file with
      | .error error => .failed connection (.file error)
      | .ok content =>
          match Program.decode content with
          | .error fault => .failed connection (.store (.unreadable fault))
          | .ok program => storing connection key program ""
  | .exportTo file =>
      onStore connection (connection.holding.loadExisting key) fun program =>
        match program.encodeIndented with
        | .ok content => .write file content
        | .error constant => .failed connection (.store (.nonFinite constant))
  | .listAll =>
      onStore connection connection.holding.list fun summaries =>
        match summaries.mapM summaryLine? with
        | some lines => .done connection (String.join lines)
        | none => .crashed
  | .delete =>
      let (result, after) := connection.delete key
      onStore after result fun () => .done after ("deleted " ++ key ++ "\n")
  | .addStatement list kind =>
      editing connection key (Edit.addStatement list kind) fun result =>
        "stat " ++ result.1 ++ "\n" ++ slotLines result.2
  | .fillExpression id kind value name =>
      editing connection key (Edit.fillExpression id kind value name) slotLines
  | .clearExpression id => editing connection key (Edit.clearExpression id) fun _ => ""
  | .rename statement name => editing connection key (Edit.rename statement name) fun _ => ""
  | .remove list index =>
      editing connection key (Edit.remove list index) fun statement =>
        "removed stat " ++ statement ++ "\n"
  | .sample => storing connection key sampleProgram ("stored demo program under " ++ key ++ "\n")
  | .run format settings =>
      onStore connection (connection.holding.loadOrEmpty key) fun program => .play program format settings

end Storing

end Command

def Outcome.message (outcome : Outcome) : String :=
  let steps := toString outcome.rendered ++ " steps"
  match outcome.ending with
  | .completed => "finished after " ++ steps
  | .cancelled => "stopped after " ++ steps
  | .limitReached => "step limit reached after " ++ steps

end BlockStage

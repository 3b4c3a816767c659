import BlockStage.Command.Arguments
import BlockStage.Workspace.Database

/-!
# Calls

A call opens its database, carries out its command there and leaves the files as
the command says.  The database is opened before anything else happens, so a
place that cannot hold a database wins over every other complaint except about
the arguments themselves.
-/

namespace BlockStage

/-- What a call leaves behind: its exit code and what it printed. -/
structure Report where
  exitCode : Nat
  output : String
  errors : String
deriving DecidableEq

namespace Report

def refused : Report := ⟨2, "", ""⟩

def crashed : Report := ⟨101, "", ""⟩

def failed (error : CommandError) : Report :=
  ⟨error.exitCode, "", "Error: " ++ error.message ++ "\n"⟩

end Report

def Report.sent (content : String) : Device → Report
  | .output => ⟨0, content, ""⟩
  | .errors => ⟨0, "", content⟩
  | _ => ⟨0, "", ""⟩

namespace Workspace

/-- Runs a program to its end, writing to an output that takes everything and
waiting in no time.  The report is missing when the run takes more turns. -/
def play (turns : Nat) (program : Program) (format : SnapshotFormat) (settings : DriveSettings) :
    Option Report :=
  let devices : Terminal.Devices Terminal.Paper Unit :=
    { write := fun content paper => paper.write content, wait := fun _ pacer => (false, pacer) }
  let start : Terminal.Show Terminal.Paper Unit := ⟨Run.start false, {}, (), false⟩
  (Drive.within (Terminal.host program format devices) settings turns 0 start).map
    fun (outcome, shown) => ⟨0, shown.output.written, outcome.message ++ "\n"⟩

/-- What a reply leaves: a report, unless a run takes too many turns, the files,
and the connection with which the database is closed. -/
structure Settlement (σ : Type := Sheet) where
  report : Option Report
  workspace : Workspace
  connection : Connection σ

def settle {σ : Type} (turns : Nat) (workspace : Workspace) (connection : Connection σ) :
    Reply σ → Settlement σ
  | .done after output => ⟨some ⟨0, output, ""⟩, workspace, after⟩
  | .write file content =>
      match workspace.write file content with
      | .error error => ⟨some (.failed (.file error)), workspace, connection⟩
      | .ok (.sent device) => ⟨some (.sent content device), workspace, connection⟩
      | .ok (.kept after) => ⟨some ⟨0, "", ""⟩, after, connection⟩
  | .play program format settings =>
      ⟨play turns program format settings, workspace, connection⟩
  | .failed after error => ⟨some (.failed error), workspace, after⟩
  | .crashed => ⟨some .crashed, workspace, connection⟩

/-- Carries out a call whose arguments have been read.  The report is missing
when a run takes more than the given number of turns. -/
def perform (turns : Nat) (invocation : Invocation) (workspace : Workspace) :
    Option Report × Workspace :=
  match workspace.openDatabase invocation.database with
  | (.error error, workspace) => (some (.failed (.store error)), workspace)
  | (.ok database, workspace) =>
      let reply := invocation.command.execute workspace.readText database.connection
        invocation.key
      let settled := workspace.settle turns database.connection reply
      (settled.report, settled.workspace.closeDatabase database settled.connection)

/-- Calls the program with the given environment and arguments. -/
def invoke (turns : Nat) (environment : String → Option String) (arguments : List String)
    (workspace : Workspace) : Option Report × Workspace :=
  match Invocation.parse? environment arguments with
  | some invocation => workspace.perform turns invocation
  | none => (some .refused, workspace)

end Workspace

end BlockStage

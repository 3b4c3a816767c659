import BlockStage.Workspace.Call

/-!
# The command line

This is the outermost layer: it reads the arguments, the environment and the
files, hands them to the commands and does what their replies say.  Everything
that is decided is decided elsewhere.
-/

namespace BlockStage.CommandLine

/-- The reason for which a file operation of the system failed. -/
def fileErrorOf : IO.Error → FileError
  | .noFileOrDirectory _ _ _ => .missing
  | .inappropriateType _ _ _ => .directory
  | _ => .missing

def readFileBytes (path : String) : IO (Except FileError ByteArray) := do
  try
    return .ok (← IO.FS.readBinFile path)
  catch error =>
    return .error (fileErrorOf error)

def writeFileBytes (path : String) (bytes : ByteArray) : IO (Except FileError Unit) := do
  try
    IO.FS.writeBinFile path bytes
    return .ok ()
  catch error =>
    return .error (fileErrorOf error)

/-! ### Database files -/

/-- A database in use, unless it is thrown away. -/
structure FileDatabase where
  path : String
  site : Site
  opening : Opening

/-- What the names of a database file and of its companions end with. -/
def endings : List String := ["", "-journal", "-wal", "-shm"]

/-- Reads a database file and its companions into a file tree. -/
def readTree (path : String) (location : Location) : IO (Except FileError (FileTree Contents)) := do
  let mut tree : FileTree Contents :=
    { files := [], directories := [location.dropLast], home := [] }
  for ending in endings do
    match ← readFileBytes (path ++ ending) with
    | .ok bytes => tree := tree.insert (Path.withEnding location ending) (.bytes bytes)
    | .error .missing => pure ()
    | .error error => return .error error
  return .ok tree

/-- Brings a database file and its companions to what another file tree says. -/
def writeTree (path : String) (location : Location) (before after : FileTree Contents) :
    IO (Except StoreError Unit) := do
  for ending in endings do
    let place := Path.withEnding location ending
    match Site.bytesAt? before place, Site.bytesAt? after place with
    | present, some bytes =>
        if present.all (· != bytes) then
          match ← writeFileBytes (path ++ ending) bytes with
          | .ok () => pure ()
          | .error _ => return .error .unusable
    | some _, none => IO.FS.removeFile (path ++ ending)
    | none, none => pure ()
  return .ok ()

/-- The access without the file from which a new database takes its rights, if
that file is there. -/
def withRights (access : Access) : IO Access := do
  match access.rightsOf.bind fun path => String.fromUTF8? ⟨path.toArray⟩ with
  | none => return access
  | some path =>
      match ← readFileBytes path with
      | .error .missing => return access
      | _ => return { access with rightsOf := none }

def openFile (path : String) (access : Access) :
    IO (Except StoreError (Connection × Option FileDatabase)) := do
  let location := Path.names access.file
  let site : Site := ⟨location, ← withRights access⟩
  match ← readTree path location with
  | .error _ => return .error .unusable
  | .ok before =>
      let (opened, tree) := site.connect before
      if let .error error ← writeTree path location before tree then return .error error
      match opened with
      | .error error => return .error error
      | .ok opening =>
          match opening.result with
          | .ok connection => return .ok (connection, some ⟨path, site, opening⟩)
          | .error error =>
              if let .error error ← writeTree path location tree (site.closed opening none tree) then
                return .error error
              return .error error

def openDatabase (address : String) :
    IO (Except StoreError (Connection × Option FileDatabase)) := do
  match Address.parse? address with
  | none => return .error .unusable
  | some access =>
      if access.isThrowaway then return access.openThrowaway.map fun connection => (connection, none)
      match String.fromUTF8? ⟨access.file.toArray⟩ with
      | none => return .error .unusable
      | some path => openFile path access

def closeDatabase (database : Option FileDatabase) (after : Connection) :
    IO (Except StoreError Unit) := do
  match database with
  | none => return .ok ()
  | some ⟨path, site, opening⟩ =>
      match ← readTree path site.location with
      | .error _ => return .error .unusable
      | .ok tree =>
          writeTree path site.location tree (site.closed opening after.holding.changed? tree)

def reportFailure (error : CommandError) : IO UInt32 := do
  IO.eprintln ("Error: " ++ error.message)
  return UInt32.ofNat error.exitCode

/-- Drives a run turn by turn: what a turn wrote is printed at once, and its
wait is slept through before the next turn. -/
partial def playLoop (host : Host (Terminal.Show String (List Span))) (settings : DriveSettings)
    (rendered : Nat) (state : Terminal.Show String (List Span)) : IO Outcome := do
  match Drive.turn host settings rendered state with
  | .inr (outcome, _) => return outcome
  | .inl (rendered, state) =>
      let closed ←
        try
          IO.print state.output
          (← IO.getStdout).flush
          pure false
        catch _ => pure true
      for span in state.pacer do
        IO.sleep (UInt32.ofNat (span.nanoseconds / 1000000))
      playLoop host settings rendered
        { state with output := "", pacer := [], cancelled := state.cancelled || closed }

def playProgram (program : Program) (format : SnapshotFormat) (settings : DriveSettings) :
    IO UInt32 := do
  let devices : Terminal.Devices String (List Span) :=
    { write := fun content output => (true, output ++ content)
      wait := fun span waits => (false, span :: waits) }
  let outcome ← playLoop (Terminal.host program format devices) settings 0
    ⟨Run.start false, "", [], false⟩
  IO.eprintln outcome.message
  return 0

/-- Reads a file as a text, when a command asks for one. -/
def importedText (command : Command) : IO (Except FileError String) := do
  match command with
  | .importFrom file =>
      match ← readFileBytes file with
      | .error error => return .error error
      | .ok bytes =>
          match String.fromUTF8? bytes with
          | some content => return .ok content
          | none => return .error .notText
  | _ => return .error .missing

def answerReply : Reply → IO UInt32
  | .done _ output => do
      IO.print output
      return 0
  | .write file content => do
      match ← writeFileBytes file content.toUTF8 with
      | .error error => reportFailure (.file error)
      | .ok () => return 0
  | .play program format settings => playProgram program format settings
  | .failed _ error => reportFailure error
  | .crashed => return 101

def connectionAfter {σ : Type} (connection : Connection σ) : Reply σ → Connection σ
  | .done after _ => after
  | .failed after _ => after
  | _ => connection

/-- Whether a reply is done while the database is open, since it changes no rows. -/
def leavesRows : Reply → Bool
  | .write .. => true
  | .play .. => true
  | _ => false

def performCall (invocation : Invocation) : IO UInt32 := do
  match ← openDatabase invocation.database with
  | .error error => reportFailure (.store error)
  | .ok (connection, database) =>
      let imported ← importedText invocation.command
      let reply := invocation.command.execute (fun _ => imported) connection invocation.key
      if leavesRows reply then
        let code ← answerReply reply
        let _ ← closeDatabase database connection
        return code
      else
        match ← closeDatabase database (connectionAfter connection reply) with
        | .error error => reportFailure (.store error)
        | .ok () => answerReply reply

/-- Calls the program with the environment and files of the system. -/
def call (arguments : List String) : IO UInt32 := do
  let database ← IO.getEnv databaseVariable
  let key ← IO.getEnv keyVariable
  let environment := fun name : String =>
    if name = databaseVariable then database else if name = keyVariable then key else none
  match Invocation.parse? environment arguments with
  | some invocation => performCall invocation
  | none =>
      IO.eprintln "error: unexpected arguments"
      return 2

end BlockStage.CommandLine

def main (arguments : List String) : IO UInt32 := BlockStage.CommandLine.call arguments

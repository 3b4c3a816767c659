import BlockStage.Pages.Rollback
import BlockStage.Workspace.Basic

/-!
# Databases in a workspace

A database has up to three companions beside its file: a record from which
unfinished changes are rolled back, a log of changes, and an index into the log.
Opening looks at what earlier users have left there.  A record that is not empty
is taken for unfinished changes: what it holds is put back, and it is removed.  A
log that is not empty is used, or removed when the database is new.  While a
database with a log is open, the log and its index are there.  A connection that
may write removes them when it is closed, and any other leaves them behind.
-/

namespace BlockStage

open Pages

/-- A database file and the way in which it is used. -/
structure Site where
  location : Location
  access : Access

/-- What stands where a database is to be. -/
inductive Occupant where
  /-- A place that can take no file. -/
  | unreachable
  /-- No file, in a directory that can take one. -/
  | nothing
  | file (bytes : ByteArray)
  /-- A file that seems empty and keeps nothing. -/
  | sink

namespace Site

def record (site : Site) : Location := Path.withEnding site.location "-journal"

def log (site : Site) : Location := Path.withEnding site.location "-wal"

def index (site : Site) : Location := Path.withEnding site.location "-shm"

def lock (site : Site) : Location := Path.withEnding site.location ".lock"

def nameSize (site : Site) : Nat := (site.location.getLast?.getD []).length

/-- What a log with changes and the index of a log start with.  Neither is
text. -/
def logMark : ByteArray := ⟨#[0x37, 0x7F, 0x06, 0x82]⟩

def bytesAt? (tree : FileTree Contents) (location : Location) : Option ByteArray :=
  match tree.entry? location with
  | some (.file (.bytes data)) => some data
  | _ => none

/-- The bytes of the file at a location, if there is a file with contents. -/
def contentsAt? (tree : FileTree Contents) (location : Location) : Option ByteArray :=
  (bytesAt? tree location).filter fun data => !data.isEmpty

def occupant (site : Site) (tree : FileTree Contents) : Occupant :=
  match tree.entry? site.location with
  | some (.file (.bytes data)) => .file data
  | some (.file (.device _)) => .sink
  | some .directory => .unreachable
  | none => if tree.isDirectory site.location.dropLast then .nothing else .unreachable

/-- Whether the file from which a new database takes its rights can be found. -/
def hasRights (site : Site) (tree : FileTree Contents) : Bool :=
  match site.access.rightsOf with
  | none => true
  | some path =>
      match tree.look path with
      | .ok _ => true
      | .error _ => false

def isLocked (site : Site) (tree : FileTree Contents) : Bool :=
  site.access.makesDirectory && (tree.entry? site.lock).isSome

/-! ### Leftovers -/

/-- The file that a record refers to, by its location, if it has contents. -/
def referenceAt? (tree : FileTree Contents) (path : PathBytes) : Option Location :=
  match tree.resolve path with
  | .ok (.name location false) => (contentsAt? tree location).map fun _ => location
  | _ => none

/-- Rolls unfinished changes back, and removes their record.  A record of changes
to several files counts as long as the file is there to which it refers. -/
def rollBack (site : Site) (record file : ByteArray) (tree : FileTree Contents) :
    ByteArray × FileTree Contents :=
  let played := Rollback.play site.access.recordBlock record file
  let tree := tree.erase site.record
  match Rollback.reference? record with
  | none => (played, tree.insert site.location (.bytes played))
  | some path =>
      match referenceAt? tree path.toList with
      | none => (file, tree)
      | some location =>
          (played, (tree.erase location).insert site.location (.bytes played))

/-- Finishes with a record of unfinished changes.  Beside a new database it is
removed if the right to do so can be claimed; beside any other it counts unless
its first byte is zero, and nobody who may only read can finish with it.  Gives
the file as it is then. -/
def settleRecord? (site : Site) (file : ByteArray) (tree : FileTree Contents) :
    Option (ByteArray × FileTree Contents) :=
  match contentsAt? tree site.record with
  | none => some (file, tree)
  | some record =>
      if !site.access.seeksUnfinished then some (file, tree)
      else if Opening.isVacant file then
        some (file, if site.access.canClaim then tree.erase site.record else tree)
      else if byteAt record 0 = 0 then some (file, tree)
      else if site.access.permission = .readOnly then none
      else some (site.rollBack record file tree)

/-- Finishes with a log that was left.  Beside a new database it is removed; any
other has to be used with it.  Gives the log if there is one to be used. -/
def settleLog? (site : Site) (file : ByteArray) (tree : FileTree Contents) :
    Option (Option ByteArray × FileTree Contents) :=
  match contentsAt? tree site.log with
  | none => some (none, tree)
  | some log =>
      if site.access.immutable then some (none, tree)
      else if Opening.isVacant file then some (none, tree.erase site.log)
      else if site.access.canLog then some (some log, tree)
      else none

/-! ### Opening and closing -/

/-- Puts the log and its index beside the file.  A log that is there stays as it
is. -/
def attachLog (site : Site) (tree : FileTree Contents) : FileTree Contents :=
  let tree :=
    if (tree.entry? site.log).isSome then tree
    else tree.insert site.log (.bytes ByteArray.empty)
  if site.access.indexesFile then tree.insert site.index (.bytes logMark) else tree

def detachLog (site : Site) (tree : FileTree Contents) : FileTree Contents :=
  let tree := tree.erase site.log
  if site.access.indexesFile then tree.erase site.index else tree

/-- The files when a database has just been opened.  Changing the file takes a
record, which is removed again. -/
def opened (site : Site) (opening : Opening) (tree : FileTree Contents) : FileTree Contents :=
  let tree :=
    if opening.touched then
      (tree.erase site.record).insert site.location (.bytes opening.file)
    else tree
  let tree := if opening.logs then site.attachLog tree else tree
  if opening.extended then tree.insert site.log (.bytes logMark) else tree

/-- The files when a database has been closed, given its bytes if they have been
changed.  A log is carried over to the file, if that is allowed and possible; a change
without one takes a record, which is removed again. -/
def closed (site : Site) (opening : Opening) (changed : Option ByteArray)
    (tree : FileTree Contents) : FileTree Contents :=
  let present := fun location => (bytesAt? tree location).getD ByteArray.empty
  if opening.logs then
    if site.access.writable && opening.settles then
      let before := present site.location
      let (file, isDone) := opening.closed changed (present site.log) before
      let tree := if file == before then tree else tree.insert site.location (.bytes file)
      if isDone then site.detachLog tree else tree
    else tree
  else
    match changed with
    | some bytes => (tree.insert site.location (.bytes bytes)).erase site.record
    | none => tree

def openUnlocked (site : Site) (file : ByteArray) (tree : FileTree Contents) :
    Option Opening × FileTree Contents :=
  match site.settleRecord? file tree with
  | none => (none, tree)
  | some (file, tree) =>
      match site.settleLog? file tree with
      | none => (none, tree)
      | some (log, tree) =>
          let opening := Opening.ofFile site.access site.nameSize file log
          (some opening, site.opened opening tree)

/-- Opens a file that is no file of bytes, after finishing with what was left
beside it. -/
def openSink (site : Site) (tree : FileTree Contents) : FileTree Contents :=
  match contentsAt? tree site.record with
  | none => tree
  | some record =>
      if site.access.seeksUnfinished && byteAt record 0 != 0 &&
          site.access.permission != .readOnly then tree.erase site.record
      else tree

/-- Opens a database.  There is nothing to close when the file could not even be
looked at. -/
def connect (site : Site) (tree : FileTree Contents) :
    Except StoreError Opening × FileTree Contents :=
  let found := site.occupant tree
  let openWith := fun (file : ByteArray) (tree : FileTree Contents) =>
    if site.isLocked tree then (.error .unusable, tree)
    else
      match site.openUnlocked file tree with
      | (none, tree) => (.error .unusable, tree)
      | (some opening, tree) => (.ok opening, tree)
  if !site.hasRights tree then (.error .unusable, tree)
  else
    match found with
    | .unreachable => (.error .unusable, tree)
    | .sink =>
        if site.isLocked tree then (.error .unusable, tree)
        else
          (.error (if site.access.canLog then .unusable else .migration), site.openSink tree)
    | .nothing =>
        if site.access.permission != .create then (.error .unusable, tree)
        else openWith ByteArray.empty (tree.insert site.location (.bytes ByteArray.empty))
    | .file bytes => openWith bytes tree

end Site

namespace Workspace

/-- A database in use, and its file unless it is thrown away. -/
structure OpenDatabase where
  connection : Connection
  site : Option (Site × Opening)

/-- Opens a database.  The files afterwards are those while it is open; one that
is refused is closed again. -/
def openDatabase (workspace : Workspace) (address : String) :
    Except StoreError OpenDatabase × Workspace :=
  match Address.parse? address with
  | none => (.error .unusable, workspace)
  | some access =>
      if access.isThrowaway then
        (access.openThrowaway.map fun connection => ⟨connection, none⟩, workspace)
      else
        match workspace.tree.normalise? access.file with
        | none => (.error .unusable, workspace)
        | some location =>
            let site : Site := ⟨location, access⟩
            match site.connect workspace.tree with
            | (.error error, tree) => (.error error, ⟨tree⟩)
            | (.ok opening, tree) =>
                match opening.result with
                | .error error => (.error error, ⟨site.closed opening none tree⟩)
                | .ok connection => (.ok ⟨connection, some (site, opening)⟩, ⟨tree⟩)

/-- Closes a database, leaving it with what a connection holds. -/
def closeDatabase (workspace : Workspace) (database : OpenDatabase) (after : Connection) :
    Workspace :=
  match database.site with
  | some (site, opening) =>
      ⟨site.closed opening after.holding.changed? workspace.tree⟩
  | none => workspace

end Workspace

end BlockStage

import BlockStage.Pages.Log
import BlockStage.Store.Address
import BlockStage.Store.Database
import BlockStage.Store.Holding

/-!
# Connections to databases

A connection is what a database holds, together with what may be done to it.
Opening a file looks at its bytes, at the log beside it, and at the way in which
it is to be used.  A new database takes a journal that its access can handle, a
file that only rolls back is turned to a log when that is possible, and a file
with a log cannot be used without one, unless nobody changes it.
-/

namespace BlockStage

open Pages

/-- A database in use. -/
structure Connection (σ : Type := Sheet) where
  holding : Holding σ
  /-- Whether the database may be changed. -/
  writable : Bool := true

namespace Connection

variable {σ : Type} [RowKeeper σ]

/-- Stores a program.  One without a written form is refused before the database
is touched. -/
def save (connection : Connection σ) (key : String) (program : Program) :
    Except StoreError (Connection σ) :=
  match StoredText.ofProgram program, connection.holding.save key program with
  | .error error, _ => .error error
  | .ok _, .error error => .error error
  | .ok _, .ok holding =>
      if connection.writable then .ok { connection with holding } else .error .unusable

/-- Removes the rows of a key.  Gives also the connection afterwards. -/
def delete (connection : Connection σ) (key : String) :
    Except StoreError Unit × Connection σ :=
  if connection.writable then
    let (result, holding) := connection.holding.delete key
    (result, { connection with holding })
  else (.error .unusable, connection)

end Connection

namespace Access

/-- The most bytes in the name of a database that stays in memory, with the
ending of a companion. -/
def maxMemoryName : Nat := 1024

def openThrowaway (access : Access) : Except StoreError Connection :=
  if !access.isUnnamed && decide (access.file.length + 8 > maxMemoryName) then .error .unusable
  else if access.permission = .readOnly then .error .migration
  else if !access.isUnnamed && access.immutable then .error .migration
  else Database.new.connect.map fun table => { holding := .own table }

end Access

/-! ### Opening files -/

/-- A file that is being opened as a database, or has been. -/
structure Opening where
  /-- What stands in the file. -/
  file : ByteArray
  /-- What stands there with the changes in the log. -/
  seen : ByteArray
  /-- Whether a log is in use. -/
  logs : Bool := false
  /-- Whether there are changes in the log. -/
  logged : Bool := false
  /-- The changes that were in the log, with the size of their pages. -/
  waiting : Option (Nat × Log.Changes) := none
  /-- Whether opening has put changes into the log. -/
  extended : Bool := false
  /-- Whether opening has changed the file. -/
  touched : Bool := false
  /-- Whether the changes in the log can be carried over to the file. -/
  settles : Bool := true
  result : Except StoreError Connection := .error .unusable

namespace Opening

/-- Whether bytes are too few to be anything but a new database. -/
def isVacant (bytes : ByteArray) : Bool := decide (bytes.size ≤ 1)

/-- The bytes by which the name of a record is longer than the one of the file. -/
def recordEnding : Nat := 8

/-- The bytes by which the name of a log is longer than the one of the file. -/
def logEnding : Nat := 4

/-- Whether a companion whose ending has some bytes can stand beside a file. -/
def hasRoom (nameSize ending : Nat) : Bool := decide (nameSize + ending ≤ Path.maxName)

/-- Whether what is seen may be changed: it has to be written in a way that is
known, and without a log it takes a record. -/
def isWritable (access : Access) (nameSize : Nat) (opening : Opening) : Bool :=
  access.writable && decide (writeVersion opening.seen ≤ 2) &&
    (opening.logs || hasRoom nameSize recordEnding)

def connected (access : Access) (nameSize : Nat) (opening : Opening) (sheet : Sheet) : Opening :=
  { opening with
    result := .ok { holding := .shared sheet, writable := isWritable access nameSize opening } }

/-- Adds the table to what is seen, in the log or at once. -/
def create? (access : Access) (nameSize : Nat) (opening : Opening) (sheet : Sheet) :
    Option Opening := do
  let seen ← sheet.created? Database.currentLayout
  let sheet ← Sheet.ofBytes? seen
  let opening :=
    if opening.logs then { opening with seen, logged := true, extended := true }
    else { opening with seen, file := seen, touched := true }
  some (opening.connected access nameSize sheet)

def migrate (access : Access) (nameSize : Nat) (opening : Opening) : Opening :=
  match Sheet.ofBytes? opening.seen with
  | none => { opening with result := .error .unusable }
  | some sheet =>
      if sheet.layout = Database.currentLayout then opening.connected access nameSize sheet
      else if sheet.layout = 0 && !sheet.isPresent && isWritable access nameSize opening then
        (opening.create? access nameSize sheet).getD { opening with result := .error .migration }
      else { opening with result := .error .migration }

/-- Opens a file that is vacant, which takes a record. -/
def openVacant (access : Access) (nameSize : Nat) (file : ByteArray) : Opening :=
  if access.writable && hasRoom nameSize recordEnding then
    if access.canLog then
      let fresh := freshFile 2
      ({ file := fresh, seen := fresh, logs := true, touched := true } : Opening).migrate access
        nameSize
    else ({ file, seen := freshFile 1 } : Opening).migrate access nameSize
  else
    { file, seen := file, result := .error (if access.canLog then .unusable else .migration) }

def turnToLog (access : Access) (nameSize : Nat) (opening : Opening) (image : Image) : Opening :=
  if isWritable access nameSize opening then
    let file := image.withVersion 2
    ({ opening with file, seen := file, logs := true, touched := true } : Opening).migrate access
      nameSize
  else opening

def openMarked (access : Access) (nameSize : Nat) (opening : Opening) : Opening :=
  if !isMarked opening.seen || decide (readVersion opening.seen > 2) then opening
  else
    let asksLog := readVersion opening.seen == 2
    let logs := opening.logs || (asksLog && access.canLog)
    if asksLog && !logs && !access.immutable then opening
    else if logs && !hasRoom nameSize logEnding then { opening with logs := false }
    else
      let opening := { opening with logs }
      match Image.ofBytes? opening.seen with
      | none => opening
      | some image =>
          if (Query.Session.ofImage? image).isNone then opening
          else if logs || !access.canLog then opening.migrate access nameSize
          else opening.turnToLog access nameSize image

/-- Opens a file that is not vacant, with the log beside it.  A log of another
version cannot be used. -/
def openPresent (access : Access) (nameSize : Nat) (file : ByteArray) (log : Option ByteArray) :
    Opening :=
  let opening : Opening := { file, seen := file, logs := log.isSome }
  match log.map Log.read with
  | none => opening.openMarked access nameSize
  | some .empty => opening.openMarked access nameSize
  | some .strange => { opening with settles := false }
  | some (.changes pageSize changes) =>
      let seen := Log.apply pageSize changes file
      { opening with
        seen, logged := true, waiting := some (pageSize, changes)
        settles := pageSizeOf seen == pageSize }
        |>.openMarked access nameSize

def ofFile (access : Access) (nameSize : Nat) (file : ByteArray) (log : Option ByteArray) :
    Opening :=
  if isVacant file then openVacant access nameSize file else openPresent access nameSize file log

/-- What stands in the file when the database is closed, and whether that is all that
should stand there, given its bytes if they have been changed, and what stands in the
log and in the file.  Changes that were in the log before are carried over from there. -/
def closed (opening : Opening) (changed : Option ByteArray) (log file : ByteArray) :
    ByteArray × Bool :=
  match changed with
  | some bytes => (bytes, true)
  | none =>
      if !opening.logged then (file, true)
      else if opening.extended then (opening.seen, true)
      else
        match opening.waiting with
        | some (pageSize, changes) => Log.carryOver pageSize changes log file
        | none => (file, true)

end Opening

end BlockStage

import BlockStage.Pages.Column
import BlockStage.Pages.Tree
import BlockStage.Query.Binding

/-!
# Work on a file

A session is the work on one file: its pages, what they define, and what has been
counted so far.  Each step can fail, which undoes the whole command, or it can be
passed over because a trigger says so.  Rows are read lazily, column by column, so
that damage is met only where the file is looked at.
-/

namespace BlockStage

namespace Query

open Pages (Value Encoding Volume Storage Cursor)
open Pages.Volume (SeenEntry)

/-- The numbers that rows of a table have had. -/
structure Sequence where
  table : String
  /-- The row in which the largest number is kept, if there is one. -/
  home : Option Int
  /-- The largest number at the start of the command. -/
  start : Int
  largest : Int

/-- The work on a file. -/
structure Session where
  volume : Volume
  schema : Schema
  /-- The rows that the last finished command has changed. -/
  changed : Int := 0
  /-- The rows that the present command has changed. -/
  counted : Int := 0
  /-- The rows that all commands have changed, those of triggers included. -/
  total : Int := 0
  /-- The number of the last row that was added. -/
  lastNumber : Int := 0
  /-- References without a target, among those to be checked at the end of the
  command. -/
  dangling : Int := 0
  /-- References without a target, among those to be checked at the end of the
  work. -/
  deferred : Int := 0
  /-- The triggers that are at work. -/
  active : List String := []
  /-- The numbers that the command has looked up or given. -/
  sequences : List Sequence := []
  /-- What random numbers are made of. -/
  seed : Nat := 1

/-- Why a step of the work ends early. -/
inductive Halt where
  /-- The command fails and is undone. -/
  | failed
  /-- What is being done to a row is passed over, from where the work stands. -/
  | passed (session : Session)

abbrev Work := StateT Session (Except Halt)

namespace Work

def fail {α : Type} : Work α := fun _ => .error .failed

def pass {α : Type} : Work α := fun session => .error (.passed session)

/-- Takes something that may be missing, which is a failure then. -/
def take {α : Type} : Option α → Work α
  | some value => pure value
  | none => fail

def require (condition : Bool) : Work Unit := if condition then pure () else fail

def look {α : Type} (reading : Volume → Option α) : Work α := do
  take (reading (← get).volume)

def store {α : Type} (step : Storage α) : Work α := fun session =>
  match step session.volume with
  | some (value, volume) => .ok (value, { session with volume })
  | none => .error .failed

def encoding : Work Encoding := do return (← get).volume.encoding

/-- Does a step that may be passed over, and tells whether it was. -/
def orPassed (step : Work Unit) : Work Bool := fun session =>
  match step session with
  | .ok ((), session) => .ok (false, session)
  | .error (.passed session) => .ok (true, session)
  | .error .failed => .error .failed

end Work

/-- The values of a row: of its columns, and its number. -/
abbrev Row := Option Nat → Work Value

namespace Row

def empty : Row := fun _ => pure .null

def ofValues (values : List Value) (number : Value) : Row
  | none => pure number
  | some position => pure (values.getD position .null)

end Row

/-! ### Values in the file -/

def toFile (encoding : Encoding) : Value → Value
  | .text bytes => .text (encoding.recode bytes)
  | value => value

def fromFile (encoding : Encoding) : Value → Value
  | .text bytes => .text (encoding.uncode bytes)
  | value => value

/-- The most that a whole number may be to take the place of a real one. -/
def wholeRealLimit : Int := 140737488355327

/-- A value of a column as records have it: a real number that is whole and not too
large takes the form of a whole one. -/
def compactReal : Value → Value
  | .real bits =>
      match Number.exactWhole? (Number.ofBits bits) with
      | some number =>
          if -wholeRealLimit - 1 ≤ number ∧ number ≤ wholeRealLimit then .whole number
          else .real bits
      | none => .real bits
  | value => value

/-- The value that rows have in a column that is not in their records. -/
def constant? : Nat → Expression → Option Value
  | 0, _ => none
  | fuel + 1, expression =>
      match expression with
      | .literal value => some value
      | .unary .plus operand => constant? fuel operand
      | .unary .minus operand =>
          match constant? fuel operand with
          | some (.whole value) => some (.whole (-value))
          | some (.real bits) => some (.ofFloat (-Number.ofBits bits))
          | some (.text bytes) =>
              match Value.numberOf bytes with
              | .whole value => some (.whole (-value))
              | .real bits => some (.ofFloat (-Number.ofBits bits))
              | value => some value
          | _ => none
      | .cast operand affinity =>
          (constant? fuel operand).map (Value.cast .utf8 affinity)
      | .collate operand _ => constant? fuel operand
      | _ => none

namespace Column

/-- The value that rows have in a column that is not in their records. -/
def missing (column : Column) : Value :=
  match column.fallback with
  | none => .null
  | some expression =>
      match constant? lookDepth expression with
      | some value => value.convert column.affinity
      | none => .null

def fromRecord (column : Column) (encoding : Encoding) (value : Value) : Value :=
  match column.affinity, value with
  | .real, .whole value => .ofFloat (Number.ofWhole value)
  | _, value => fromFile encoding value

def toRecord (column : Column) (encoding : Encoding) (value : Value) : Value :=
  if column.affinity = .real then compactReal value else toFile encoding value

end Column

namespace Table

def recordValue (table : Table) (cursor : Cursor) (column : Column) (position : Nat) :
    Work Value := do
  let session ← get
  let index ← Work.take ((table.storedPositions).findIdx? (· == position))
  let cell := cursor.cell session.volume.usable
  match ← Work.look (fun volume => volume.valueAt? cursor.page cell index) with
  | some value => return column.fromRecord session.volume.encoding value
  | none => return if table.isNumbered then column.missing else .null

def record (table : Table) (encoding : Encoding) (values : List Value) : ByteArray :=
  Pages.recordBytes (table.storedPositions.map fun position =>
    if table.isNumber position then .null
    else
      match table.columns[position]? with
      | some column => column.toRecord encoding (values.getD position .null)
      | none => .null)

end Table

/-! ### Entries -/

/-- How a part of an index orders values. -/
structure PartOrder where
  collation : Collation
  descends : Bool

namespace Index

def orders? (index : Index) : Option (List PartOrder) :=
  index.parts.mapM fun part =>
    (Collation.ofName? part.collation).map fun collation => ⟨collation, part.descends⟩

end Index

/-- How a value in an entry compares with a value that is sought. -/
def comparePart (encoding : Encoding) (order : PartOrder) (stored sought : Value) : Ordering :=
  let result := Value.compare encoding order.collation (fromFile encoding stored) sought
  if order.descends then result.swap else result

/-- Compares the values of an entry from some offsets on with those that are sought.
Values that are all equal compare as is told. -/
def compareFrom? (encoding : Encoding) (entry : SeenEntry) (finish : Nat) (rest : Ordering) :
    List PartOrder → List Value → Nat → Nat → Option Ordering
  | order :: orders, sought :: values, offset, start =>
      let (kind, next) := Pages.clippedVarint entry.bytes (entry.start + offset)
      let next := next - entry.start
      let behind := start + Pages.kindSize kind
      let isLong := match sought with
        | .text _ => decide (12 ≤ kind ∧ kind % 2 = 1)
        | .blob _ => decide (12 ≤ kind ∧ kind % 2 = 0)
        | _ => false
      if isLong && decide (entry.size < behind) then none
      else
        match comparePart encoding order (Value.ofBytes kind entry.bytes (entry.start + start))
          sought with
        | .eq =>
            if values.isEmpty then some rest
            else if entry.size < behind then some rest
            else if finish ≤ next then none
            else compareFrom? encoding entry finish rest orders values next behind
        | different => some different
  | _, _, _, _ => some rest

/-- Whether values that are sought start with a text that is compared by its bytes. -/
def startsPlainly : List PartOrder → List Value → Bool
  | order :: _, .text _ :: _ => order.collation == .binary
  | _, _ => false

/-- Compares an entry with some values that are sought.  When a text comes first, the
head of an entry that stays on its page is taken to be short. -/
def entryOrder? (encoding : Encoding) (orders : List PartOrder) (values : List Value)
    (rest : Ordering) (entry : SeenEntry) : Option Ordering :=
  let (finish, offset) := Pages.clippedVarint entry.bytes entry.start
  if entry.isNear && startsPlainly orders values && decide (orders.length ≤ 13) then
    let finish := Pages.byteAt entry.bytes entry.start
    compareFrom? encoding entry finish rest orders values 1 finish
  else if finish > entry.size then none
  else compareFrom? encoding entry finish rest orders values (offset - entry.start) finish

end Query

end BlockStage

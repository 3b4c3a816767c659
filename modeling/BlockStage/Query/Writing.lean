import BlockStage.Query.Preparation
import BlockStage.Query.Rows

/-!
# Writing rows

A row of a table goes together with its entries in the indexes of the table.  The
entries are written before the row and removed before it.  A row is known by its
number, or by the values that tell it apart.
-/

namespace BlockStage

namespace Query

open Pages (Value Encoding Volume Storage Cursor)

/-- What a row of a table is known by. -/
inductive Mark where
  | number (number : Int)
  | keys (values : List Value)

/-- A row with all its values. -/
structure Tuple where
  values : List Value
  number : Int

namespace Tuple

def row (tuple : Tuple) : Row := Row.ofValues tuple.values (.whole tuple.number)

end Tuple

namespace Index

/-- Whether the keys alone tell the entries of the index apart. -/
def isExact (index : Index) (table : Table) : Bool :=
  index.unique.isSome && index.keys.all fun part =>
    match part.spot with
    | .column position => ((table.columns[position]?).bind Column.required).isSome
    | .number => true
    | .value _ => false

def width (index : Index) (table : Table) : Nat :=
  if index.isExact table then index.keys.length else index.parts.length

/-- Whether the entries of the index are the rows of the table themselves. -/
def isHome (index : Index) (table : Table) : Bool := index.isPrimary && !table.isNumbered

def entryValues (index : Index) (row : Row) : Work (List Value) :=
  index.parts.mapM fun part =>
    match part.spot with
    | .column position => row (some position)
    | .number => row none
    | .value expression => Engine.standard.value (Scene.ofRow row) expression

def hasEntry (index : Index) (row : Row) : Work Bool :=
  Engine.standard.fulfilsIn (Scene.ofRow row) index.condition

def entryRecord (index : Index) (table : Table) (encoding : Encoding) (values : List Value) :
    ByteArray :=
  Pages.recordBytes ((index.parts.zip values).map fun (part, value) =>
    match part.spot with
    | .column position =>
        match table.columns[position]? with
        | some column => column.toRecord encoding value
        | none => value
    | _ => toFile encoding value)

def comparison (index : Index) (values : List Value) :
    Work (Volume.SeenEntry → Option Ordering) := do
  let orders ← Work.take index.orders?
  return entryOrder? (← Work.encoding) (orders.take values.length) values .eq

def write (index : Index) (table : Table) (values : List Value) (record : ByteArray) :
    Work Unit := do
  let compare ← index.comparison (values.take (index.width table))
  Work.store (Storage.insertEntry index.root compare record)

def writeFor (index : Index) (table : Table) (tuple : Tuple) : Work Unit := do
  let encoding ← Work.encoding
  if index.isHome table then
    let values ← index.entryValues tuple.row
    index.write table values (table.record encoding tuple.values)
  else if ← index.hasEntry tuple.row then
    let values ← index.entryValues tuple.row
    index.write table values (index.entryRecord table encoding values)
  else return ()

/-- Removes the entry with some values, which has to be there. -/
def remove (index : Index) (table : Table) (values : List Value) : Work Unit := do
  match ← Table.entryPlace? index (values.take (index.width table)) with
  | some cursor => Work.store (Storage.deleteAt cursor)
  | none => Work.fail

def removeFor (index : Index) (table : Table) (row : Row) : Work Unit := do
  if ← index.hasEntry row then index.remove table (← index.entryValues row)
  else return ()

end Index

namespace Table

def place? (table : Table) : Mark → Work (Option Cursor)
  | .number number => table.find? number
  | .keys values => do entryPlace? (← Work.take table.primary?) values

def markOf (table : Table) (row : Row) : Work Mark := do
  if table.isNumbered then
    match ← row none with
    | .whole number => return .number number
    | _ => Work.fail
  else
    let primary ← Work.take table.primary?
    return .keys (← (positionsOf primary.keys).mapM fun position => row (some position))

def tupleOf (table : Table) (row : Row) : Work Tuple := do
  let values ← (List.range table.columns.length).mapM fun position => row (some position)
  let number ←
    if table.isNumbered then
      match ← row none with
      | .whole number => pure number
      | _ => Work.fail
    else pure 0
  return { values, number }

def withNumber (table : Table) (values : List Value) (number : Int) : List Value :=
  match table.numberColumn with
  | some position => values.set position (.whole number)
  | none => values

/-- Removes the entries of a row, apart from those of an index. -/
def removeEntries (table : Table) (row : Row) (chosen : Index → Bool) : Work Unit :=
  table.indexes.forM fun index => do
    if !index.isHome table && chosen index then index.removeFor table row else return ()

/-- Removes a row with its entries.  The entry by which the row has been found goes
last. -/
def removeRow (table : Table) (mark : Mark) (found : Option (Index × List Value)) : Work Unit := do
  match ← table.place? mark with
  | none => return ()
  | some cursor =>
      let row := table.rowAt Engine.standard cursor
      table.removeEntries row fun index => found.all fun (other, _) => other.name != index.name
      match ← table.place? mark with
      | none => Work.fail
      | some cursor =>
          Work.store (Storage.deleteAt cursor)
          match found with
          | some (index, values) => index.remove table values
          | none => return ()

/-- Writes the entries of a row in some indexes, and then the row. -/
def writeRow (table : Table) (tuple : Tuple) (chosen : Index → Bool) : Work Unit := do
  table.indexes.forM fun index => do
    if chosen index then index.writeFor table tuple else return ()
  if table.isNumbered then
    Work.store (Storage.insertRow table.root tuple.number
      (table.record (← Work.encoding) tuple.values))
  else return ()

def maxNumber : Int := Number.largest

/-- A random number that no row has, with fuel for the attempts. -/
def randomNumber (table : Table) : Nat → Work Int
  | 0 => Work.fail
  | fuel + 1 => do
      let session ← get
      let (number, seed) := Engine.random session.seed
      set { session with seed }
      let number := (Pages.unsigned 8 number : Int) % (maxNumber / 2) + 1
      match ← table.find? number with
      | none => return number
      | some _ => table.randomNumber fuel

def nextNumber (table : Table) : Work Int := do
  let usable := (← get).volume.usable
  match ← Work.look fun volume => volume.last? true table.root with
  | none => return 1
  | some cursor =>
      let last := cursor.number usable
      if last < maxNumber then return last + 1 else table.randomNumber 100

end Table

/-! ### Numbers that are not used again -/

namespace Sequence

/-- The name of the table in which the largest numbers are kept. -/
def keeper : String := "sqlite_sequence"

def keeperTable : Work Table := do
  let table ← Work.take ((← get).schema.table? keeper)
  Work.require (table.isNumbered && table.columns.length == 2)
  return table

/-- Looks up the largest number that rows of a table have had. -/
def find (table : Table) : Work Sequence := do
  match (← get).sequences.find? fun sequence => sequence.table == table.written with
  | some sequence => return sequence
  | none =>
      let encoding ← Work.encoding
      let keeper ← keeperTable
      let name := Value.text (Grammar.bytesOfText table.written)
      let found ← keeper.visit Engine.standard {} (.numbers false) (fun _ => false)
        (fun (_ : Option (Value × Value)) row => do
          let value ← row (some 0)
          if !value.isNull && Value.compare encoding .binary value name == .eq then
            return (some (← row none, ← row (some 1)), false)
          else return (none, true)) none
      let sequence : Sequence := match found with
        | some (.whole home, value) =>
            { table := table.written, home := some home, start := value.toWhole
              largest := value.toWhole }
        | _ => { table := table.written, home := none, start := 0, largest := 0 }
      modify fun session => { session with sequences := session.sequences ++ [sequence] }
      return sequence

def note (sequence : Sequence) (number : Int) : Work Unit :=
  modify fun session => { session with
    sequences := session.sequences.map fun other =>
      if other.table == sequence.table then { other with largest := max other.largest number }
      else other }

/-- The number for a new row of a table that does not use numbers again. -/
def next (table : Table) : Work Int := do
  let last ← table.nextNumber
  let sequence ← find table
  Work.require (decide (sequence.largest < Table.maxNumber))
  return max last (sequence.largest + 1)

/-- Writes the largest numbers down that the command has given. -/
def writeAll : Work Unit := do
  let sequences := (← get).sequences
  sequences.forM fun sequence => do
    if sequence.largest ≤ sequence.start then return ()
    else
      let keeper ← keeperTable
      let number ← match sequence.home with
        | some home => pure home
        | none => keeper.nextNumber
      let encoding ← Work.encoding
      let record := Pages.recordBytes
        [toFile encoding (.text (Grammar.bytesOfText sequence.table)), .whole sequence.largest]
      Work.store (Storage.insertRow keeper.root number record)
  modify fun session => { session with sequences := [] }

end Sequence

end Query

end BlockStage

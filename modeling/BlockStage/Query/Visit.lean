import BlockStage.Query.Evaluation

/-!
# Visiting rows

The rows of a table are visited one after the other on some way, as long as they are
wanted.  On the way through an index, columns that its entries have are taken from
them, and the row itself is looked up only for the others.
-/

namespace BlockStage

namespace Query

open Pages (Value Encoding Volume Cursor)

/-- Goes from place to place in a tree until no further one is wanted, with fuel for
the number of places. -/
def walk {α : Type} (move : Volume → Cursor → Option (Option Cursor))
    (step : α → Cursor → Work (α × Bool)) : Nat → Option Cursor → α → Work α
  | _, none, result => pure result
  | 0, some _, _ => Work.fail
  | fuel + 1, some cursor, result => do
      let (result, goesOn) ← step result cursor
      if goesOn then
        walk move step fuel (← Work.look fun volume => move volume cursor) result
      else pure result

def walkFuel : Work Nat := do
  let volume := (← get).volume
  return volume.count * volume.pageSize + 1

def move (isBackward : Bool) (volume : Volume) (cursor : Cursor) : Option (Option Cursor) :=
  if isBackward then volume.previous? cursor else volume.next? cursor

def firstPlace (isBackward isTable : Bool) (root : Nat) (volume : Volume) :
    Option (Option Cursor) :=
  if isBackward then volume.last? isTable root else volume.first? isTable root

namespace Table

/-- A row with the columns that are computed from others when they are asked for, with
fuel for those that are computed from each other. -/
def computing (table : Table) (engine : Engine) (base : Row) : Nat → Row
  | 0 => base
  | fuel + 1 => fun column =>
      match column with
      | none => base none
      | some position =>
          match table.columns[position]? with
          | some { computed := some (value, false), affinity, .. } => do
              let scene := Scene.ofRow (table.computing engine base fuel)
              return (← engine.value scene value).convert affinity
          | _ => base column

/-- A row with all its columns, given those that are kept. -/
def completed (table : Table) (engine : Engine) (base : Row) : Row :=
  table.computing engine base table.columns.length

def kept (table : Table) (cursor : Cursor) : Row := fun column => do
  let number := cursor.number (← get).volume.usable
  match column with
  | none => return if table.isNumbered then .whole number else .null
  | some position =>
      if table.isNumber position then return .whole number
      else
        match table.columns[position]? with
        | some column => table.recordValue cursor column position
        | none => Work.fail

/-- The row at a place of the tree of the table, with all its columns. -/
def rowAt (table : Table) (engine : Engine) (cursor : Cursor) : Row :=
  table.completed engine (table.kept cursor)

def find? (table : Table) (number : Int) : Work (Option Cursor) := do
  match ← Work.look fun volume => volume.searchRow? table.root number with
  | some ⟨cursor, .eq⟩ => return some cursor
  | _ => return none

def entryPlace? (index : Index) (values : List Value) : Work (Option Cursor) := do
  let encoding ← Work.encoding
  let orders ← Work.take index.orders?
  let found ← Work.look fun volume =>
    volume.searchEntries? index.root (entryOrder? encoding (orders.take values.length) values .eq)
  match found with
  | some ⟨cursor, .eq⟩ => return some cursor
  | _ => return none

/-- The positions in the entries of an index at which columns stand. -/
def entryPosition? (table : Table) (index : Index) (column : Option Nat) : Option Nat :=
  index.parts.findIdx? fun part =>
    match part.spot, column with
    | .column position, some wanted => position == wanted
    | .number, none => true
    | .number, some wanted => table.isNumber wanted
    | _, _ => false

def entryValue (cursor : Cursor) (position : Nat) : Work Value := do
  let usable := (← get).volume.usable
  let value ← Work.look fun volume => volume.valueAt? cursor.page (cursor.cell usable) position
  return fromFile (← Work.encoding) (value.getD .null)

def entryBytes (cursor : Cursor) : Work ByteArray := do
  let usable := (← get).volume.usable
  Work.look fun volume => volume.payload? cursor.page (cursor.cell usable)

def entryNumber (cursor : Cursor) : Work Int := do
  Work.take (Volume.rowNumber? (← entryBytes cursor))

/-- The row of the entry of an index at a place, given how the row itself is found. -/
def entryRow (table : Table) (index : Index) (cursor : Cursor) (home : Work Cursor) : Row :=
  fun column => do
    match column with
    | none => return .whole (← entryNumber cursor)
    | some position =>
        if table.isNumber position then return .whole (← entryNumber cursor)
        else
          match table.entryPosition? index column, table.columns[position]? with
          | some place, some shape =>
              let value ← entryValue cursor place
              return match shape.affinity, value with
                | .real, .whole value => .ofFloat (Number.ofWhole value)
                | _, value => value
          | _, _ => table.kept (← home) column

/-- The place of the row of an entry in a table whose rows have no numbers. -/
def primaryPlace? (table : Table) (index : Index) (cursor : Cursor) : Work (Option Cursor) := do
  let primary ← Work.take table.primary?
  let values ← (positionsOf primary.keys).mapM fun position => do
    let place ← Work.take (table.entryPosition? index (some position))
    entryValue cursor place
  entryPlace? primary values

/-- The values that are sought in an index, unless one of them is nothing. -/
def soughtValues (table : Table) (engine : Engine) (scene : Scene) (index : Index)
    (expressions : List Expression) : Work (Option (List Value)) := do
  let values ← (index.keys.zip expressions).mapM fun (part, expression) => do
    let value ← engine.value scene expression
    match part.spot with
    | .column position =>
        let affinity := ((table.columns[position]?).map Column.affinity).getD .blob
        let shared := Value.sharedAffinity (some affinity) expression.affinity?
        return if shared = .blob then value else value.convert affinity
    | _ => return value
  return if values.any Value.isNull then none else some values

/-- The first place of an index at which entries start with some values. -/
def firstEntry (index : Index) (values : List Value) (isBackward : Bool) :
    Work (Option Cursor) := do
  let encoding ← Work.encoding
  let orders ← Work.take index.orders?
  let compare := entryOrder? encoding (orders.take values.length) values
    (if isBackward then .lt else .gt)
  match ← Work.look fun volume => volume.searchEntries? index.root compare with
  | none => return none
  | some ⟨cursor, order⟩ =>
      if isBackward && order == .gt then Work.look fun volume => volume.previous? cursor
      else if !isBackward && order == .lt then Work.look fun volume => volume.next? cursor
      else return some cursor

/-- Whether the entries that start with some values end before a place. -/
def isBehind (index : Index) (values : List Value) (isBackward : Bool) (cursor : Cursor) :
    Work Bool := do
  if values.isEmpty then return false
  else
    let encoding ← Work.encoding
    let orders ← Work.take index.orders?
    let entry ← entryBytes cursor
    let order := entryOrder? encoding (orders.take values.length) values .eq
      ⟨entry, 0, entry.size, false⟩
    return if isBackward then order == some .lt else order == some .gt || order.isNone

/-- Visits the rows whose entries in an index start with some values. -/
def visitEntries {α : Type} (table : Table) (engine : Engine) (scene : Scene) (index : Index)
    (expressions : List Expression) (isBackward isCovered : Bool)
    (step : α → Row → Work (α × Bool)) (start : α) : Work α := do
  let fuel ← walkFuel
  discard (Work.take index.orders?)
  match ← table.soughtValues engine scene index expressions with
  | none => return start
  | some values =>
      let first ←
        if values.isEmpty then Work.look (firstPlace isBackward false index.root)
        else firstEntry index values isBackward
      walk (move isBackward) (fun result cursor => do
        if ← isBehind index values isBackward cursor then return (result, false)
        else if !table.isNumbered && index.isPrimary then step result (table.rowAt engine cursor)
        else if isCovered then
          step result (table.completed engine (table.entryRow index cursor Work.fail))
        else if table.isNumbered then
          let number ← entryNumber cursor
          let home := do Work.take (← table.find? number)
          step result (table.completed engine (table.entryRow index cursor home))
        else
          match ← table.primaryPlace? index cursor with
          | none => return (result, true)
          | some place =>
              step result (table.completed engine (table.entryRow index cursor (pure place))))
        fuel first start

/-- Visits rows of the table on some way, as long as they are wanted. -/
def visit {α : Type} (table : Table) (engine : Engine) (scene : Scene) (access : Access)
    (isCovered : Index → Bool) (step : α → Row → Work (α × Bool)) (start : α) : Work α := do
  match access with
  | .numbers isBackward =>
      let first ← Work.look (firstPlace isBackward true table.root)
      walk (move isBackward) (fun result cursor => step result (table.rowAt engine cursor))
        (← walkFuel) first start
  | .number expression =>
      match (← engine.value scene expression).convert .numeric with
      | .whole number =>
          match ← table.find? number with
          | some cursor => return (← step start (table.rowAt engine cursor)).1
          | none => return start
      | _ => return start
  | .entries index expressions isBackward =>
      table.visitEntries engine scene index expressions isBackward (isCovered index) step start

end Table

end Query

end BlockStage

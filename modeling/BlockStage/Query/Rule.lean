import BlockStage.Query.Writing

/-!
# Rules about rows

Before a row is written its values take the form that their columns prefer, computed
columns get their values, required values have to be there, and the checks of the
table have to hold.  A rule that is broken either fails the command or has the row
passed over; a missing value may also be replaced by the one that is given by default.
-/

namespace BlockStage

namespace Query

open Pages (Value)

/-- A step that is done to a row, and ends early when the row is passed over. -/
abbrev RowStep := OptionT Work

namespace RowStep

def skip {α : Type} : RowStep α := failure

def look {α : Type} (work : Work (Option α)) : RowStep (Option α) := OptionT.lift work

def resolve {α : Type} : Resolution → RowStep α
  | .ignore => skip
  | _ => (Work.fail : Work α)

def run (step : RowStep Unit) : Work Unit := do
  let _ ← OptionT.run step
  return ()

end RowStep

namespace Column

def fallbackValue (column : Column) : Work Value :=
  match column.fallback with
  | none => pure .null
  | some expression => do
      let bound ← Work.take (Scope.bind? { schema := {} } expression)
      Engine.standard.value {} bound

/-- Whether a value is of the type of its column, where that matters. -/
def isOfType (column : Column) (value : Value) : Bool :=
  match column.type.toLower, value with
  | _, .null => true
  | "any", _ => true
  | "blob", .blob _ => true
  | "int", .whole _ => true
  | "integer", .whole _ => true
  | "real", .real _ => true
  | "text", .text _ => true
  | _, _ => false

end Column

namespace Table

def converted (table : Table) (values : List Value) : List Value :=
  (table.columns.zip values).map fun (column, value) => value.convert column.affinity

/-- Whether all values are of the types of their columns, if the table insists on
that. -/
def areOfType (table : Table) (values : List Value) (chosen : Column → Bool) : Bool :=
  !table.isStrict || (table.columns.zip values).zipIdx.all fun ((column, value), position) =>
    !chosen column || table.isNumber position || column.isOfType value

/-- Values in the forms that their columns prefer, which have to be of their types. -/
def settled (table : Table) (values : List Value) : Work (List Value) := do
  let values := table.converted values
  Work.require (table.areOfType values fun _ => true)
  return values

def hasComputed (table : Table) : Bool := table.columns.any fun column => column.computed.isSome

/-- A row whose computed columns are computed when they are asked for, with fuel for
those that are computed from each other. -/
def computedRow (table : Table) (base : Row) : Nat → Row
  | 0 => fun _ => Work.fail
  | fuel + 1 => fun column =>
      match column with
      | none => base none
      | some position =>
          match table.columns[position]? with
          | some { computed := some (value, _), affinity, .. } => do
              let scene := Scene.ofRow (table.computedRow base fuel)
              return (← Engine.standard.value scene value).convert affinity
          | _ => base column

def compute (table : Table) (tuple : Tuple) : Work (List Value) := do
  if !table.hasComputed then return tuple.values
  else
    let values := table.converted tuple.values
    Work.require (table.areOfType values fun column => column.computed.isNone)
    let row := table.computedRow ({ tuple with values } : Tuple).row (table.columns.length + 1)
    (List.range table.columns.length).mapM fun position => row (some position)

/-- Deals with required values that are missing, in one of two rounds: by default
values in the first, which takes columns that are not computed. -/
def requireValues (table : Table) (resolution : Option Resolution) (isSecond : Bool)
    (isConcerned : Nat → Bool) (values : List Value) : RowStep (List Value) :=
  table.columns.zipIdx.foldlM (fun values (column, position) => do
    match column.required with
    | none => return values
    | some rule =>
        let rule := resolution.getD rule
        let isComputed := column.computed.isSome
        if table.isNumber position || !(isConcerned position) || (isComputed && !isSecond) ||
            !(values.getD position .null).isNull then return values
        else if rule == .replace && !isSecond && column.fallback.isSome then
          return values.set position (← column.fallbackValue)
        else if isSecond && !isComputed && rule != .replace then return values
        else RowStep.resolve (if rule == .replace then .abort else rule)) values

def fillRequired (table : Table) (resolution : Option Resolution) (isConcerned : Nat → Bool)
    (tuple : Tuple) : RowStep Tuple := do
  let first ← table.requireValues resolution false isConcerned tuple.values
  let tuple := { tuple with values := first }
  let values ← table.compute tuple
  let second ← table.requireValues resolution true isConcerned values
  return { tuple with values := second }

/-- Whether the checks of the table that a change concerns hold for a row. -/
def checkRow (table : Table) (resolution : Option Resolution) (assigned : Option Assigned)
    (tuple : Tuple) : RowStep Unit :=
  table.checks.forM fun check => do
    if assigned.all fun assigned => table.uses assigned check then
      let value ← Engine.standard.value (Scene.ofRow tuple.row) check
      if value.truth? == some false then
        RowStep.resolve (if resolution == some .ignore then .ignore else .abort)
      else return ()
    else return ()

/-- The row as it will be written, if it keeps all rules about single rows. -/
def admitted (table : Table) (resolution : Option Resolution) (assigned : Option Assigned)
    (tuple : Tuple) : RowStep Tuple := do
  let isConcerned := fun position => assigned.all fun assigned => assigned.has table position
  let tuple ← table.fillRequired resolution isConcerned tuple
  let values ← table.settled tuple.values
  let tuple := { tuple with values }
  table.checkRow resolution assigned tuple
  return tuple

end Table

end Query

end BlockStage

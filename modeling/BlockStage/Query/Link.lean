import BlockStage.Query.Table

/-!
# References between tables

A reference leads from the rows of a table to those of another one, either by their
numbers or by an index without repeats.  Which references a change concerns depends on
the columns that it assigns.
-/

namespace BlockStage

namespace Query

/-- The columns that a change assigns. -/
structure Assigned where
  /-- Their positions, those of computed columns that depend on them included. -/
  columns : List Nat
  /-- Whether the number of the row is among them. -/
  hasNumber : Bool

namespace Assigned

def has (assigned : Assigned) (table : Table) (position : Nat) : Bool :=
  assigned.columns.contains position || (assigned.hasNumber && table.isNumber position)

end Assigned

/-- How the rows to which a reference leads are found. -/
structure Route where
  /-- The index in which they are looked up; without one they are found by their
  numbers. -/
  index : Option Index
  /-- The columns that refer, in the order of the index. -/
  columns : List Nat

namespace Link

def leadsToNumber (link : Link) (parent : Table) : Bool :=
  match parent.numberColumn, link.columns, link.targets with
  | some _, [_], [] => true
  | some position, [_], [target] => (parent.columns[position]?.map Column.name) == some target
  | _, _, _ => false

/-- The columns that refer, in the order of an index on the columns they refer to. -/
def columnsFor? (link : Link) (parent : Table) (index : Index) : Option (List Nat) :=
  if index.keys.length ≠ link.columns.length || index.unique.isNone || index.condition.isSome then
    none
  else if link.targets.isEmpty then if index.isPrimary then some link.columns else none
  else
    index.keys.mapM fun part => do
      let position ← match part.spot with
        | .column position => some position
        | .number => parent.numberColumn
        | .value _ => none
      let column ← parent.columns[position]?
      if part.collation ≠ column.collation then none
      else
        let target ← link.targets.findIdx? (· == column.name)
        link.columns[target]?

/-- How the rows to which a reference leads are found, if they can be told apart by
the columns it refers to. -/
def route? (link : Link) (parent : Table) : Option Route :=
  if link.leadsToNumber parent then some ⟨none, link.columns⟩
  else
    parent.indexes.findSome? fun index =>
      (link.columnsFor? parent index).map fun columns => ⟨some index, columns⟩

/-- The columns of the table it leads to, in the order of the route. -/
def targetColumns (parent : Table) (route : Route) : List (Option Nat) :=
  match route.index with
  | none => [none]
  | some index =>
      index.keys.map fun part =>
        match part.spot with
        | .column position => if parent.isNumber position then none else some position
        | _ => none

def isAssignedIn (link : Link) (child : Table) (assigned : Assigned) : Bool :=
  link.columns.any (assigned.has child)

/-- Whether a change assigns columns to which a reference leads. -/
def isTargetAssignedIn (link : Link) (parent : Table) (assigned : Assigned) : Bool :=
  parent.columns.zipIdx.any fun (column, position) =>
    assigned.has parent position &&
      if link.targets.isEmpty then column.isPrimary else link.targets.contains column.name

end Link

namespace Schema

/-- The references that lead to a table, the newest first, with the tables they come
from. -/
def linksTo (schema : Schema) (name : String) : List (Table × Link) :=
  schema.tables.reverse.flatMap fun table =>
    (table.links.filter fun link => link.table == name).map fun link => (table, link)

/-- Whether a change to a table, or any removal from it if none is given, concerns
references. -/
def concernsLinks (schema : Schema) (table : Table) (assigned : Option Assigned) : Bool :=
  match assigned with
  | none => !table.links.isEmpty || !(schema.linksTo table.name).isEmpty
  | some assigned =>
      table.links.any (fun link => link.isAssignedIn table assigned) ||
        (schema.linksTo table.name).any fun (_, link) => link.isTargetAssignedIn table assigned

/-- Whether a change to a table has to take its rows out and put them in again for the
sake of references. -/
def movesRows (schema : Schema) (table : Table) (assigned : Assigned) : Bool :=
  (schema.linksTo table.name).any (fun (_, link) =>
      link.isTargetAssignedIn table assigned && link.onUpdate != .nothing) ||
    table.links.any fun link => link.isAssignedIn table assigned && link.table == table.name

end Schema

end Query

end BlockStage

import BlockStage.Query.Statement

/-!
# Tables and what belongs to them

A table has columns, rules, indexes, references to other tables, and triggers that
wait for changes to its rows.  All expressions in a table are bound: the columns in
them are known by their places in a single row.
-/

namespace BlockStage

namespace Query

/-- A column of a table. -/
structure Column where
  name : String
  /-- The words of its type. -/
  type : String
  affinity : Affinity
  collation : String := "binary"
  /-- What is done about a missing value, if there has to be one. -/
  required : Option Resolution := none
  fallback : Option Expression := none
  /-- How the value is computed from the others, and whether it is kept. -/
  computed : Option (Expression × Bool) := none
  /-- Whether the column is part of what tells the rows apart. -/
  isPrimary : Bool := false
  /-- How wide its values are taken to be. -/
  width : Nat := 1

namespace Column

def isStored (column : Column) : Bool := column.computed.all fun entry => entry.2

end Column

/-- Where a part of an index gets its values. -/
inductive Spot where
  | column (position : Nat)
  /-- The number of a row. -/
  | number
  | value (expression : Expression)

/-- A part of an index. -/
structure Part where
  spot : Spot
  collation : String
  descends : Bool := false

/-- An index. -/
structure Index where
  name : String
  root : Nat := 0
  /-- What rows are ordered by. -/
  keys : List Part
  /-- What is added to tell rows apart that agree in the keys. -/
  rest : List Part := []
  /-- What is done about a second row with the same keys, if there may be none. -/
  unique : Option Resolution := none
  /-- The rows for which there are entries. -/
  condition : Option Expression := none
  /-- Whether the table made the index with itself. -/
  isOwn : Bool := false
  isPrimary : Bool := false

namespace Index

def parts (index : Index) : List Part := index.keys ++ index.rest

end Index

/-- A reference of the rows of a table to those of another one. -/
structure Link where
  /-- The positions of the columns that refer. -/
  columns : List Nat
  table : String
  /-- The columns to which they refer; none stand for those that tell the rows
  apart. -/
  targets : List String
  onDelete : Reaction
  onUpdate : Reaction
  isDeferred : Bool

/-- A table. -/
structure Table where
  name : String
  /-- The name as it was written when the table was made. -/
  written : String := name
  root : Nat := 0
  columns : List Column
  /-- Whether rows have numbers. -/
  isNumbered : Bool := true
  /-- Whether values have to be of the types of their columns. -/
  isStrict : Bool := false
  /-- The column that is the number of the row. -/
  numberColumn : Option Nat := none
  /-- What is done about a second row with the same number. -/
  numberRule : Resolution := .abort
  /-- Whether numbers are never used again. -/
  isCounted : Bool := false
  checks : List Expression := []
  /-- The indexes, in the order in which they are looked through. -/
  indexes : List Index := []
  links : List Link := []

namespace Table

def position? (table : Table) (name : String) : Option Nat :=
  table.columns.findIdx? fun column => column.name == name

/-- The index that tells the rows apart, if there is one. -/
def primary? (table : Table) : Option Index := table.indexes.find? Index.isPrimary

def positionsOf (parts : List Part) : List Nat :=
  parts.filterMap fun part =>
    match part.spot with
    | .column position => some position
    | _ => none

/-- The positions of the columns in the order in which records have them. -/
def storedPositions (table : Table) : List Nat :=
  let stored := (List.range table.columns.length).filter fun position =>
    (table.columns[position]?.map Column.isStored).getD false
  if table.isNumbered then stored
  else
    let first := positionsOf ((table.primary?.map Index.keys).getD [])
    first ++ stored.filter fun position => !first.contains position

/-- The positions of columns of whose values the rows of the table have copies for
the sake of a name: the number of the row stands in no record. -/
def isNumber (table : Table) (position : Nat) : Bool := table.numberColumn == some position

end Table

/-- A view. -/
structure View where
  name : String
  /-- Names for its columns, or none. -/
  columns : List String
  query : Request

/-- A trigger. -/
structure Trigger where
  name : String
  table : String
  time : TriggerTime
  event : TriggerEvent
  condition : Option Expression
  steps : List Statement

/-- Everything that a file defines. -/
structure Schema where
  tables : List Table := []
  views : List View := []
  /-- The triggers, the newest first. -/
  triggers : List Trigger := []
  /-- Tables that are kept elsewhere. -/
  foreigns : List String := []

namespace Schema

def table? (schema : Schema) (name : String) : Option Table :=
  schema.tables.find? fun table => table.name == name

def view? (schema : Schema) (name : String) : Option View :=
  schema.views.find? fun view => view.name == name

def hasRelation (schema : Schema) (name : String) : Bool :=
  (schema.table? name).isSome || (schema.view? name).isSome || schema.foreigns.contains name

def hasIndex (schema : Schema) (name : String) : Bool :=
  schema.tables.any fun table => table.indexes.any fun index => index.name == name

def triggersOf (schema : Schema) (name : String) : List Trigger :=
  schema.triggers.filter fun trigger => trigger.table == name

def withTable (schema : Schema) (table : Table) : Schema :=
  { schema with
    tables := schema.tables.map fun other => if other.name == table.name then table else other }

end Schema

end Query

end BlockStage

import BlockStage.Query.Expression

/-!
# Commands

A command computes rows, changes the rows of a table, or makes something new: a
table, an index, a view or a trigger.  A trigger is itself a list of commands.
-/

namespace BlockStage

namespace Query

/-! ### Changing rows -/

/-- New values for some columns of a row. -/
structure Assignment where
  columns : List String
  value : Expression

/-- What is done about a new row that agrees with an old one. -/
structure Upsert where
  /-- The columns in which the rows agree; none stand for any rule. -/
  target : List OrderTerm
  targetCondition : Option Expression
  /-- The change to the old row, unless nothing is done. -/
  assignments : Option (List Assignment)
  condition : Option Expression

/-- Adds rows to a table. -/
structure Insertion where
  table : String
  columns : List String
  /-- The rows, or one with default values only. -/
  query : Option Request
  resolution : Option Resolution
  upserts : List Upsert

/-- Changes rows of a table. -/
structure Update where
  table : String
  label : Option String
  assignments : List Assignment
  sources : List Source
  condition : Option Expression
  resolution : Option Resolution

/-- Removes rows from a table. -/
structure Removal where
  table : String
  label : Option String
  condition : Option Expression

/-- A command that computes or changes rows. -/
inductive Statement where
  | query (query : Request)
  | insert (insertion : Insertion)
  | update (update : Update)
  | delete (removal : Removal)

/-! ### Definitions -/

/-- What is done to rows that refer to one that is changed or removed. -/
inductive Reaction where
  | nothing
  | restrict
  | cascade
  | setNull
  | setDefault
deriving DecidableEq

/-- A reference to rows of another table. -/
structure Reference where
  table : String
  /-- The columns there; none stand for those by which its rows are told apart. -/
  columns : List String
  onDelete : Reaction := .nothing
  onUpdate : Reaction := .nothing

/-- What a definition says about a column. -/
inductive ColumnRule where
  /-- A name for the next rule. -/
  | label
  | fallback (value : Expression)
  | nullable
  | notNull (resolution : Option Resolution)
  | primary (descends : Bool) (resolution : Option Resolution) (isCounted : Bool)
  | unique (resolution : Option Resolution)
  | check (condition : Expression)
  | reference (reference : Reference)
  /-- When the last reference is checked. -/
  | deferral (isDeferred : Bool)
  | collation (name : String)
  | computed (value : Expression) (kind : Option String)

/-- What a definition says about several columns. -/
inductive TableRule where
  /-- A name for the next rule. -/
  | label
  | primary (parts : List OrderTerm) (resolution : Option Resolution) (isCounted : Bool)
  | unique (parts : List OrderTerm) (resolution : Option Resolution)
  | check (condition : Expression)
  | reference (columns : List String) (reference : Reference) (isDeferred : Bool)

/-- A column as it is defined. -/
structure ColumnText where
  name : String
  /-- The words of its type. -/
  type : String
  rules : List ColumnRule

/-- A table as it is defined. -/
structure TableText where
  name : String
  /-- The name as it was written. -/
  written : String
  columns : List ColumnText
  rules : List TableRule
  /-- Whether the rows have numbers. -/
  isNumbered : Bool
  /-- Whether values have to be of the type of their columns. -/
  isStrict : Bool

/-- An index as it is defined. -/
structure IndexText where
  name : String
  table : String
  isUnique : Bool
  parts : List OrderTerm
  condition : Option Expression

/-- A view as it is defined. -/
structure ViewText where
  name : String
  columns : List String
  query : Request

/-- When a trigger acts. -/
inductive TriggerTime where
  | before
  | after
  | instead
deriving DecidableEq

/-- What a trigger waits for. -/
inductive TriggerEvent where
  | insert
  | delete
  /-- A change to some columns, or to any. -/
  | update (columns : List String)
deriving DecidableEq

/-- A trigger as it is defined. -/
structure TriggerText where
  name : String
  table : String
  time : TriggerTime
  event : TriggerEvent
  condition : Option Expression
  steps : List Statement

/-- A command that makes something. -/
inductive Definition where
  | table (text : TableText)
  | index (text : IndexText)
  | view (text : ViewText)
  | trigger (text : TriggerText)
  /-- A table that is kept elsewhere. -/
  | foreign (name : String) (keeper : String)

end Query

end BlockStage

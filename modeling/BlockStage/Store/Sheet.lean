import BlockStage.Query.Catalogue
import BlockStage.Store.RowKeeper

/-!
# The table of programs in a file

In a paged file the programs are the rows of a table.  Others may have made that table,
or a view in its place, with columns, rules and triggers of their own, so the commands of a
store mean whatever the file makes of them.
-/

namespace BlockStage

open Pages (Value)
open Query (Session Statement Work)

/-- A file in use for programs. -/
structure Sheet where
  session : Session

namespace Sheet

/-- The table in a file, unless the file is not in order. -/
def ofBytes? (bytes : ByteArray) : Option Sheet :=
  (Pages.Image.ofBytes? bytes).bind fun image => (Session.ofImage? image).map Sheet.mk

def layout (sheet : Sheet) : Int := Pages.signed 4 (sheet.session.volume.word 60)

/-- Whether the table, or something else with its name, is there. -/
def isPresent (sheet : Sheet) : Bool :=
  sheet.session.schema.hasRelation RowKeeper.tableName ||
    sheet.session.schema.hasIndex RowKeeper.tableName

def rows? (sheet : Sheet) (text : String) (parameters : List Value) (most : Option Nat) :
    Option (List (List Value)) :=
  match Statement.ofText? text with
  | some (.query query) =>
      match Work.ask query parameters most sheet.session with
      | .ok (rows, _) => some rows
      | .error _ => none
  | _ => none

def execute? (sheet : Sheet) (text : String) (parameters : List Value) : Option Sheet :=
  (Statement.ofText? text).bind fun statement =>
    (sheet.session.perform? (Work.execute statement parameters)).map Sheet.mk

instance : RowKeeper Sheet where
  rows? := rows?
  execute? := execute?
  changed sheet := sheet.session.changed

def created? (sheet : Sheet) (layout : Int) : Option ByteArray :=
  (sheet.session.perform?
    (Query.makeTable RowKeeper.tableName RowKeeper.definitionText layout)).map
      fun session => session.volume.bytes

/-- The bytes of the file, if they have been changed. -/
def changed? (sheet : Sheet) : Option ByteArray :=
  if sheet.session.volume.isChanged then some sheet.session.volume.bytes else none

end Sheet

end BlockStage

import BlockStage.Store.Table

/-!
# Databases

A database is a table together with the number of its layout.  A new database has no
table yet and is brought to the current layout when it is opened.  A database that
claims another layout than the current one is refused, and so is one that claims none
although the table is there.
-/

namespace BlockStage

/-- A database: the number of its layout, and its table, if there is one. -/
structure Database where
  layout : Int
  table : Option TableStore

namespace Database

def currentLayout : Int := 1

def new : Database := ⟨0, none⟩

def ofTable (layout : Int) (table : TableStore) : Database := ⟨layout, some table⟩

/-- Whether opening has to bring the database to the current layout first. -/
def isNew (database : Database) : Bool := database.layout == 0 && database.table.isNone

/-- Opens a database, bringing a new one to the current layout. -/
def connect (database : Database) : Except StoreError TableStore :=
  if database.isNew then .ok .empty
  else if database.layout = currentLayout then .ok (database.table.getD .empty)
  else .error .migration

end Database

end BlockStage

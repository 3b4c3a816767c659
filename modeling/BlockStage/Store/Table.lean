import BlockStage.Store.Basic

/-!
# The table of stored programs

A database keeps one row per key, with the text of the program and its digest.
Others may write to the rows, so a text is only read after its digest has been
checked.  Saving compares the recorded digest alone: a row whose digest is the
one of the new text is left as it is.
-/

namespace BlockStage

/-- The rows of a database. -/
structure TableStore where
  rows : Arena StoredText

namespace TableStore

def empty : TableStore := ⟨Arena.empty⟩

/-- The program stored under a key.  A text that does not have its recorded
digest is refused before it is read. -/
def load (store : TableStore) (key : String) : Except StoreError (Option Program) :=
  match store.rows.find? key with
  | some row => (row.checked key).map some
  | none => .ok none

def loadOrEmpty (store : TableStore) (key : String) : Except StoreError Program :=
  orEmpty (store.load key)

def loadExisting (store : TableStore) (key : String) : Except StoreError Program :=
  orNotFound key (store.load key)

/-- Stores a program, unless its digest is the one already recorded. -/
def save (store : TableStore) (key : String) (program : Program) :
    Except StoreError TableStore :=
  (StoredText.ofProgram program).map fun stored => ⟨StoredText.putUnder store.rows key stored⟩

def delete (store : TableStore) (key : String) : Except StoreError TableStore :=
  if store.rows.contains key then .ok ⟨store.rows.erase key⟩ else .error (.notFound key)

def list (store : TableStore) : List Summary := StoredText.listing store.rows

/-- Overwrites parts of a row from outside, without regard to its meaning, if
the row is there. -/
def tamper (store : TableStore) (key : String) (content digest : Option String) : TableStore :=
  match store.rows.find? key with
  | some row =>
      ⟨store.rows.insert key ⟨content.getD row.content, digest.getD row.digest⟩⟩
  | none => store

end TableStore

end BlockStage

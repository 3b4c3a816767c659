import BlockStage.Store.Sheet

/-!
# What a database holds

A database that nobody else can reach holds a table of programs and nothing else.  A
file can be written by others as well, and there everything depends on what they have
made of it.
-/

namespace BlockStage

/-- What a database holds. -/
inductive Holding (σ : Type := Sheet) where
  /-- A table of programs. -/
  | own (table : TableStore)
  /-- Whatever stands in a file. -/
  | shared (keeper : σ)

namespace Holding

variable {σ : Type} [RowKeeper σ]

def load (key : String) : Holding σ → Except StoreError (Option Program)
  | .own table => table.load key
  | .shared keeper => RowKeeper.load keeper key

def loadOrEmpty (holding : Holding σ) (key : String) : Except StoreError Program :=
  orEmpty (holding.load key)

def loadExisting (holding : Holding σ) (key : String) : Except StoreError Program :=
  orNotFound key (holding.load key)

/-- Stores a program.  One without a written form is refused before anything else. -/
def save (key : String) (program : Program) : Holding σ → Except StoreError (Holding σ)
  | .own table => (table.save key program).map .own
  | .shared keeper =>
      match StoredText.ofProgram program with
      | .ok stored => (RowKeeper.save keeper key stored).map .shared
      | .error error => .error error

/-- Removes the rows of a key.  Gives also what is held afterwards. -/
def delete (key : String) : Holding σ → Except StoreError Unit × Holding σ
  | .own table =>
      match table.delete key with
      | .ok table => (.ok (), .own table)
      | .error error => (.error error, .own table)
  | .shared keeper => (RowKeeper.delete keeper key).map id .shared

def list : Holding σ → Except StoreError (List Summary)
  | .own table => .ok table.list
  | .shared keeper => RowKeeper.list keeper

def changed? : Holding → Option ByteArray
  | .own _ => none
  | .shared sheet => sheet.changed?

end Holding

end BlockStage

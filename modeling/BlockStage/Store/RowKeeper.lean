import BlockStage.Query.Comparison
import BlockStage.Store.Table

/-!
# Keepers of rows

A database that others can reach keeps the programs as the rows of a table.  Programs are
stored and found there by commands, which are texts.  What a command does is up to whatever
keeps the rows; a store only gives the commands and reads what comes back.
-/

namespace BlockStage

open Pages (Value)

/-- What keeps the rows of a table and carries out commands on them. -/
class RowKeeper (σ : Type) where
  /-- The rows of a query, or the first of them. -/
  rows? : σ → String → List Value → Option Nat → Option (List (List Value))
  /-- Does a command that changes rows. -/
  execute? : σ → String → List Value → Option σ
  /-- The number of rows that the last command has changed. -/
  changed : σ → Int

namespace RowKeeper

def tableName : String := "programs"

def definitionText : String :=
  "CREATE TABLE programs (\n" ++
  "    key          TEXT PRIMARY KEY NOT NULL,\n" ++
  "    blob         TEXT NOT NULL,\n" ++
  "    content_hash TEXT NOT NULL,\n" ++
  "    updated_at   TEXT NOT NULL DEFAULT CURRENT_TIMESTAMP\n" ++
  ")"

def loadText : String := "SELECT blob, content_hash FROM programs WHERE key = ?1"

def saveText : String :=
  "INSERT INTO programs (key, blob, content_hash) VALUES (?1, ?2, ?3) " ++
  "ON CONFLICT(key) DO UPDATE SET blob = excluded.blob, " ++
  "content_hash = excluded.content_hash, updated_at = CURRENT_TIMESTAMP " ++
  "WHERE programs.content_hash <> excluded.content_hash"

def deleteText : String := "DELETE FROM programs WHERE key = ?1"

def listText : String :=
  "SELECT key, content_hash, length(CAST(blob AS BLOB)) FROM programs ORDER BY key"

/-! ### Reading -/

def text? : Value → Option String
  | .text bytes => String.fromUTF8? bytes
  | _ => none

def orUnusable {α : Type} : Option α → Except StoreError α
  | some value => .ok value
  | none => .error .unusable

def programOf (key : String) : Option (List (List Value)) → Except StoreError (Option Program)
  | none => .error .unusable
  | some [] => .ok none
  | some (row :: _) =>
      match row.map text? with
      | [some content, some digest] => (StoredText.mk content digest).checked key |>.map some
      | _ => .error .unusable

/-- The line of a listing for a row, if there is one. -/
def summary? : List Value → Option Summary
  | [key, digest, .whole size] => do
      let key ← text? key
      let digest ← text? digest
      some ⟨key, digest, size.toNat⟩
  | _ => none

variable {σ : Type} [RowKeeper σ]

def load (keeper : σ) (key : String) : Except StoreError (Option Program) :=
  programOf key (rows? keeper loadText [.ofText key] (some 1))

def list (keeper : σ) : Except StoreError (List Summary) :=
  orUnusable ((rows? keeper listText [] none).bind fun rows => rows.mapM summary?)

/-! ### Writing -/

def save (keeper : σ) (key : String) (stored : StoredText) : Except StoreError σ :=
  orUnusable
    (execute? keeper saveText [.ofText key, .ofText stored.content, .ofText stored.digest])

/-- The end of a removal: the key was not found when no row has been removed. -/
def removed (before : σ) (key : String) : Option σ → Except StoreError Unit × σ
  | none => (.error .unusable, before)
  | some after =>
      if changed after = 0 then (.error (.notFound key), after) else (.ok (), after)

/-- Removes the rows of a key.  When the command has removed none, whatever else it has
done stays. -/
def delete (keeper : σ) (key : String) : Except StoreError Unit × σ :=
  removed keeper key (execute? keeper deleteText [.ofText key])

end RowKeeper

end BlockStage

import BlockStage.Pages.Commit
import BlockStage.Query.Change
import BlockStage.Query.Schema

/-!
# The catalogue of a file

The tree on the first page is a table of what the file holds: for each table, index
or other thing its kind, its name, the table it belongs to, the root of its tree, and
the text that defines it.  A session on a file starts by reading all of it.
-/

namespace BlockStage

namespace Query

open Pages (Value Volume Storage Image Page)

namespace Entry

/-- A text of the catalogue up to a zero, byte by byte. -/
def textOf? : Value → Option String
  | .null => none
  | value =>
      some (String.ofList ((value.textBytes.toList.map fun byte =>
        Char.ofNat byte.toNat).takeWhile (· != '\x00')))

def ofValues? : List Value → Option Entry
  | [kind, name, table, root, definition] =>
      some { kind := textOf? kind, name := textOf? name, table := textOf? table
             root := textOf? root, definition := textOf? definition }
  | _ => none

end Entry

/-- The entries of the catalogue, in the order of their numbers. -/
def catalogueEntries : Work (List Entry) := do
  let table := Schema.catalogueTable "sqlite_master"
  let entries ← table.visit Engine.standard {} (.numbers false) (fun _ => false)
    (fun entries row => do
      let values ← (List.range table.columns.length).mapM fun position => row (some position)
      return ((← Work.take (Entry.ofValues? values)) :: entries, true)) []
  return entries.reverse

namespace Session

/-- A session on a file, unless something in its catalogue is not in order. -/
def ofImage? (image : Image) : Option Session :=
  let start : Session := { volume := .ofImage image, schema := {} }
  match catalogueEntries start with
  | .error _ => none
  | .ok (entries, session) =>
      let setting : Setting :=
        { pageCount := image.pageCount, honoursOrder := decide (4 ≤ Pages.byteAt image.bytes 47) }
      (Schema.ofEntries? setting entries).map fun schema => { session with schema }

/-- Does some work that changes the file, if all of it can be done.  What changes
nothing leaves the file as it is. -/
def perform? (session : Session) (work : Work Unit) : Option Session :=
  let steps : Work Unit := do
    Work.store Storage.begin
    work
    Work.finish
  match steps { session with deferred := 0 } with
  | .error _ => none
  | .ok ((), after) =>
      if after.volume.isChanged then
        (Storage.commit after.volume).map fun ((), volume) => { after with volume }
      else some { after with volume := session.volume }

end Session

/-! ### Making a table -/

def makeRoot (isTable : Bool) : Storage Nat := do
  let number ← Storage.allocate [] 1
  let data ← Storage.bytes number
  Storage.put (Page.blank number data true isTable (← Storage.usable))
  return number

/-- The description of a file to which nothing has been written says neither the
form of its records nor its encoding. -/
def putForm : Storage Unit := do
  if (← Storage.word 44) = 0 then
    Storage.putWord 44 4
    if (← Storage.word 56) = 0 then Storage.putWord 56 1 else pure ()
  else pure ()

/-- What stands in the catalogue for a table that is being made. -/
def placeholder : ByteArray := Pages.bytesOf [6, 0, 0, 0, 0, 0]

/-- Adds an empty table with the only index that it makes to a file, and sets the
number of its owner. -/
def makeTable (name definition : String) (ownNumber : Int) : Work Unit := do
  let catalogue := Schema.catalogueTable "sqlite_master"
  Work.store putForm
  let encoding ← Work.encoding
  let text := fun content : String => toFile encoding (.ofText content)
  let root ← Work.store (makeRoot true)
  let number ← catalogue.nextNumber
  Work.store (Storage.insertRow 1 number placeholder)
  let indexRoot ← Work.store (makeRoot false)
  let indexNumber ← catalogue.nextNumber
  Work.store (Storage.insertRow 1 indexNumber (Pages.recordBytes
    [text "index", text (Making.ownName name 1), text name, .whole indexRoot, .null]))
  Work.store (Storage.insertRow 1 number (Pages.recordBytes
    [text "table", text name, text name, .whole root, text definition]))
  Work.store (do Storage.putWord 40 ((← Storage.word 40) + 1))
  Work.store (Storage.putWord 60 (Pages.unsigned 4 ownNumber))

end Query

end BlockStage

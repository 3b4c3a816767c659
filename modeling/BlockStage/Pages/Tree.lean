import BlockStage.Pages.Balance
import BlockStage.Pages.Cursor

/-!
# Changing trees

Rows and entries are inserted where a search for them has ended, written over when
they are there already, and removed from their place.  An entry that is removed from
the inside of an index is replaced by the one in front of it, which stands on a leaf.
-/

namespace BlockStage

namespace Pages

namespace Storage

def balanceFrom (way : List (Page × Nat)) (page : Page) : Storage Nat :=
  balance (way.length + 3) way page

/-- Writes a payload over the chain of another one of the same size. -/
def overwriteChain (held : List Nat) : Nat → Nat → ByteArray → Storage Unit
  | 0, _, _ => damaged
  | fuel + 1, number, rest => do
      let most := (← usable) - 4
      let data ← bytes number
      require !held.contains number
      putBytes number (replaceAt data 4 (rest.extract 0 most))
      if rest.size ≤ most then pure ()
      else overwriteChain held fuel (wordAt data 0) (rest.extract most rest.size)

def overwrite (cursor : Cursor) (cell : Cell) (payload : ByteArray) : Storage Unit := do
  let page := cursor.page
  require (decide (cell.start + cell.kept ≤ page.data.size ∧ page.first ≤ cell.start))
  put (page.put cell.start (payload.extract 0 cell.kept))
  if cell.kept = cell.size then pure ()
  else
    overwriteChain cursor.pages (payload.size + 1) (wordAt page.data (cell.start + cell.kept))
      (payload.extract cell.kept payload.size)

/-- Puts a cell on a page at a position, and balances the tree if that takes
more room than there is. -/
def place (way : List (Page × Nat)) (page : Page) (index : Nat) (cell : ByteArray) :
    Storage Unit := do
  let page ← take (page.insert? (← usable) index cell)
  if page.extra.isEmpty then put page else discard (balanceFrom way page)

def replaceCell (cursor : Cursor) (page : Page) (cell : ByteArray) : Storage Unit := do
  let usable ← usable
  require (decide (cursor.index < page.count))
  let old := page.cell usable cursor.index
  let cell :=
    if page.isLeaf then cell
    else page.data.extract old.offset (old.offset + 4) ++ cell.extract 4 cell.size
  clearCell cursor.pages page old
  if old.length = cell.size ∧ old.kept = old.size then
    require (decide (page.head + 10 ≤ old.offset ∧ old.offset + cell.size ≤ page.data.size))
    put (page.put old.offset cell)
  else
    let page ← take (page.drop? usable cursor.index old.length)
    place cursor.way page cursor.index cell

/-- Inserts a payload into a tree, given where a search for it has ended, and what
stands in front of the payload in its cell. -/
def insertAt (root : Nat) (found : Option Volume.Found) (front payload : ByteArray) :
    Storage Unit := do
  let usable ← usable
  match found with
  | none =>
      let page ← countedPage root
      let cell ← fillCell [root] page front payload
      place [] page 0 cell
  | some ⟨cursor, order⟩ =>
      let old := cursor.cell usable
      if order = .eq ∧ old.size = payload.size then overwrite cursor old payload
      else
        let page ← take (cursor.page.counted? usable)
        let front := zeros page.childSize ++ front
        let cell ← fillCell cursor.pages page front payload
        match order with
        | .eq => replaceCell cursor page cell
        | .lt => place cursor.way page (cursor.index + 1) cell
        | .gt => place cursor.way page cursor.index cell

/-- Inserts a row into a table, or replaces the row with its number. -/
def insertRow (root : Nat) (number : Int) (record : ByteArray) : Storage Unit := do
  let found ← take ((← get).searchRow? root number)
  insertAt root found (varintBytes record.size ++ varintBytes (unsigned 8 number)) record

/-- Inserts an entry into an index, or replaces the one that compares equal. -/
def insertEntry (root : Nat) (compare : Volume.SeenEntry → Option Ordering)
    (entry : ByteArray) : Storage Unit := do
  let found ← take ((← get).searchEntries? root compare)
  insertAt root found (varintBytes entry.size) entry

/-- Puts the last entry of a leaf in place of one on a page above it, to which a way
leads, and balances both pages. -/
def moveUp (way : List (Page × Nat)) (page : Page) (index : Nat) (below : Cursor) :
    Storage Unit := do
  let usable ← usable
  let leaf ← take (below.page.counted? usable)
  let between := below.way.take (below.way.length - way.length - 1)
  let child := (between.getLast?.map fun step => step.1.number).getD leaf.number
  let last := leaf.count - 1
  let offset := leaf.offsetOf last
  let length := (leaf.cellIn usable leaf.data offset).length
  require (decide (4 ≤ offset))
  let cell := wordBytes child ++ leaf.data.extract offset (offset + length)
  let page ← take (page.insert? usable index cell)
  let leaf ← take (leaf.drop? usable last length)
  put page
  let stop ← balanceFrom (between ++ (page, index) :: way) leaf
  if stop ≤ way.length then pure ()
  else
    let stored ← countedPage page.number
    discard (balanceFrom way { stored with extra := page.extra })

def deleteAt (cursor : Cursor) : Storage Unit := do
  let usable ← usable
  let page := cursor.page
  require (decide (cursor.index < page.count))
  let page ← take (page.counted? usable)
  let cell := page.cell usable cursor.index
  require (decide (page.gap ≤ cell.offset))
  let below ←
    if page.isLeaf then pure none
    else do
      let below ← take ((← get).below? cursor)
      pure (some below)
  clearCell cursor.pages page cell
  let page ← take (page.drop? usable cursor.index cell.length)
  match below with
  | none => discard (balanceFrom cursor.way page)
  | some below => moveUp cursor.way page cursor.index below

/-- Gives back all pages below a page of a tree, and the page itself unless it is the
root, which becomes empty.  Gives the number of rows or entries that were there. -/
def clearPage (held : List Nat) (isRoot : Bool) : Nat → Nat → Storage Nat
  | 0, _ => damaged
  | depth + 1, number => do
      require (decide (number ≤ (← get).count) && !held.contains number)
      let usable ← usable
      let page ← take ((← get).page? number)
      let held := number :: held
      let below ← (List.range page.count).foldlM (fun total index => do
        let below ← if page.isLeaf then pure 0 else clearPage held false depth (page.child index)
        clearCell held page (page.cell usable index)
        return total + below) 0
      let last ← if page.isLeaf then pure 0 else clearPage held false depth page.lastChild
      if isRoot then put (Page.blank number page.data true page.isTable usable)
      else giveBack number
      return below + last + if page.isTable && !page.isLeaf then 0 else page.count

/-- Removes everything from a tree, and gives the number of rows or entries that were
there. -/
def clear (root : Nat) : Storage Nat := do clearPage [] true ((← get).count + 1) root

end Storage

end Pages

end BlockStage

import BlockStage.Pages.Volume

/-!
# Places in a tree

A cursor is a place in a tree: a cell of a page, and the way that leads there from
the root.  Rows hang only on the leaves of a table, while entries of an index hang
on all its pages.  A tree that is deeper than any sound one, or that has pages of the
wrong kind below its root, is damaged.
-/

namespace BlockStage

namespace Pages

/-- A place in a tree. -/
structure Cursor where
  /-- The pages above with the positions at which they were left, the nearest
  first. -/
  way : List (Page × Nat)
  page : Page
  index : Nat

namespace Cursor

def cell (cursor : Cursor) (usable : Nat) : Cell := cursor.page.cell usable cursor.index

def number (cursor : Cursor) (usable : Nat) : Int := (cursor.cell usable).number

/-- The numbers of the pages on the way to a place, its own page included. -/
def pages (cursor : Cursor) : List Nat :=
  cursor.page.number :: cursor.way.map fun step => step.1.number

end Cursor

namespace Volume

def maxDepth : Nat := 20

/-- Moves to the first cell of a page below, which has to have one. -/
def down? (volume : Volume) (cursor : Cursor) (number : Nat) : Option Cursor :=
  if cursor.way.length + 1 ≥ maxDepth then none
  else
    match volume.page? number with
    | none => none
    | some page =>
        if page.count = 0 ∨ page.isTable ≠ cursor.page.isTable then none
        else some ⟨(cursor.page, cursor.index) :: cursor.way, page, 0⟩

/-- The first cell of a root, unless the tree is empty. -/
def root? (volume : Volume) (isTable : Bool) (root : Nat) : Option (Option Cursor) :=
  match volume.page? root with
  | none => none
  | some page =>
      let cursor : Cursor := ⟨[], page, 0⟩
      if page.isTable ≠ isTable then none
      else if 0 < page.count then some (some cursor)
      else if page.isLeaf then some none
      else if root = 1 then (volume.down? cursor page.lastChild).map some
      else none

def leftmost? (volume : Volume) : Nat → Cursor → Option Cursor
  | 0, cursor => if cursor.page.isLeaf then some cursor else none
  | depth + 1, cursor =>
      if cursor.page.isLeaf then some cursor
      else
        match volume.down? cursor (cursor.page.child cursor.index) with
        | none => none
        | some cursor => volume.leftmost? depth cursor

def rightmost? (volume : Volume) : Nat → Cursor → Option Cursor
  | 0, cursor => if cursor.page.isLeaf then some cursor else none
  | depth + 1, cursor =>
      if cursor.page.isLeaf then some { cursor with index := cursor.page.count - 1 }
      else
        let cursor := { cursor with index := cursor.page.count }
        match volume.down? cursor cursor.page.lastChild with
        | none => none
        | some cursor => volume.rightmost? depth cursor

def first? (volume : Volume) (isTable : Bool) (root : Nat) : Option (Option Cursor) :=
  match volume.root? isTable root with
  | none => none
  | some none => some none
  | some (some cursor) => (volume.leftmost? maxDepth cursor).map some

def last? (volume : Volume) (isTable : Bool) (root : Nat) : Option (Option Cursor) :=
  match volume.root? isTable root with
  | none => none
  | some none => some none
  | some (some cursor) => (volume.rightmost? maxDepth cursor).map some

/-- Moves up to the nearest page on the way that has not been left at its end. -/
def up : List (Page × Nat) → Option Cursor
  | [] => none
  | (page, index) :: way => if index < page.count then some ⟨way, page, index⟩ else up way

/-- Moves to the place behind the one on the same page, or below it. -/
def onward? (volume : Volume) (cursor : Cursor) : Option Cursor :=
  let cursor := { cursor with index := cursor.index + 1 }
  if cursor.index < cursor.page.count then volume.leftmost? maxDepth cursor
  else
    match volume.down? cursor cursor.page.lastChild with
    | none => none
    | some cursor => volume.leftmost? maxDepth cursor

/-- The place behind another one, unless that is the last. -/
def next? (volume : Volume) (cursor : Cursor) : Option (Option Cursor) :=
  if !cursor.page.isLeaf ∨ cursor.index + 1 < cursor.page.count then
    (volume.onward? cursor).map some
  else
    match up cursor.way with
    | none => some none
    | some above =>
        if above.page.isTable then (volume.onward? above).map some else some (some above)

/-- Moves up to the nearest page on the way that has not been left at its start. -/
def upBack : List (Page × Nat) → Option Cursor
  | [] => none
  | (page, index) :: way => if 0 < index then some ⟨way, page, index - 1⟩ else upBack way

def below? (volume : Volume) (cursor : Cursor) : Option Cursor :=
  match volume.down? cursor (cursor.page.child cursor.index) with
  | none => none
  | some cursor => volume.rightmost? maxDepth cursor

/-- The place in front of another one, unless that is the first. -/
def previous? (volume : Volume) (cursor : Cursor) : Option (Option Cursor) :=
  if !cursor.page.isLeaf then (volume.below? cursor).map some
  else if 0 < cursor.index then some (some { cursor with index := cursor.index - 1 })
  else
    match upBack cursor.way with
    | none => some none
    | some above =>
        if above.page.isTable then (volume.below? above).map some else some (some above)

/-! ### Searching -/

/-- Where a search ended: the place, and how what stands there compares with what
was sought. -/
structure Found where
  cursor : Cursor
  order : Ordering

/-- Searches the cells of a page between two positions.  Gives the position where
the search ended, how the cell there compares, and the first position behind all
smaller cells. -/
def searchFrom? (compare : Nat → Option Ordering) : Nat → Nat → Nat → Nat →
    Option (Nat × Ordering × Nat)
  | 0, _, _, _ => none
  | fuel + 1, low, high, index =>
      match compare index with
      | none => none
      | some .eq => some (index, .eq, index)
      | some .lt =>
          if index + 1 ≥ high then some (index, .lt, index + 1)
          else searchFrom? compare fuel (index + 1) high ((index + 1 + (high - 1)) / 2)
      | some .gt =>
          if index ≤ low then some (index, .gt, low)
          else searchFrom? compare fuel low index ((low + (index - 1)) / 2)

/-- The number of the row in a cell, as a search sees it.  On a leaf it comes
behind a size that may not reach the end of the page. -/
def seenNumber? (page : Page) : Nat → Nat → Option Int
  | 0, _ => none
  | fuel + 1, offset =>
      if page.isLeaf then
        if byteAt page.data offset < 128 then
          some (signed 8 (varintAt page.data (offset + 1)).1)
        else if offset + 1 ≥ page.data.size then none
        else seenNumber? page fuel (offset + 1)
      else some (signed 8 (varintAt page.data (offset + 4)).1)

/-- Searches a tree downward from a place.  An entry may be found on any page, a
row only on a leaf. -/
def searchDown? (volume : Volume) (compare : Page → Nat → Option Ordering) :
    Nat → Cursor → Option Found
  | 0, _ => none
  | depth + 1, cursor =>
      let page := cursor.page
      match searchFrom? (compare page) (page.count + 1) 0 page.count ((page.count - 1) / 2) with
      | none => none
      | some (index, order, low) =>
          if page.isLeaf ∨ (order = .eq ∧ !page.isTable) then
            some ⟨{ cursor with index }, order⟩
          else
            match volume.down? { cursor with index := low } (page.child low) with
            | none => none
            | some cursor => volume.searchDown? compare depth cursor

def search? (volume : Volume) (isTable : Bool) (root : Nat)
    (compare : Page → Nat → Option Ordering) : Option (Option Found) :=
  match volume.root? isTable root with
  | none => none
  | some none => some none
  | some (some cursor) => (volume.searchDown? compare maxDepth cursor).map some

def searchRow? (volume : Volume) (root : Nat) (number : Int) : Option (Option Found) :=
  volume.search? true root fun page index =>
    (seenNumber? page page.data.size (page.offsetOf index)).map fun seen =>
      Ord.compare seen number

/-- An entry as a search sees it: the bytes among which it stands, where it starts, and how
long it says it is. -/
structure SeenEntry where
  bytes : ByteArray
  start : Nat
  size : Nat
  /-- Whether the bytes are those of its page. -/
  isNear : Bool

/-- The entry in a cell, as a search sees it.  A short one is taken from the page as it
is. -/
def entrySeen? (volume : Volume) (page : Page) (index : Nat) : Option SeenEntry :=
  let offset := page.offsetOf index
  let start := offset + page.childSize
  let most := page.mostKept volume.usable
  let byte := byteAt page.data start
  let second := byteAt page.data (start + 1)
  let short := (byte % 128) * 128 + second
  if byte ≤ min 127 most then some ⟨page.data, start + 1, byte, true⟩
  else if second < 128 ∧ short ≤ most then some ⟨page.data, start + 2, short, true⟩
  else
    let cell := page.cellIn volume.usable page.data offset
    if cell.size < 2 ∨ cell.size / volume.usable > volume.count then none
    else (volume.payload? page cell).map fun entry => ⟨entry, 0, entry.size, false⟩

/-- Searches an index, given how an entry compares with what is sought. -/
def searchEntries? (volume : Volume) (root : Nat) (compare : SeenEntry → Option Ordering) :
    Option (Option Found) :=
  volume.search? false root fun page index =>
    match volume.entrySeen? page index with
    | none => none
    | some entry => compare entry

end Volume

end Pages

end BlockStage

import BlockStage.Pages.Image

/-!
# Pages in use

A volume is a paged file while it is in use.  Its pages are read by their numbers
and written in place.  A page of a tree has a short description, the offsets of its
cells, and the cells themselves, which fill the page from its end.  Every look at a
page checks that it is one, since a damaged file has to be noticed where the damage
is met, and not before.
-/

namespace BlockStage

namespace Pages

/-- A paged file in use. -/
structure Volume where
  pageSize : Nat
  usable : Nat
  /-- The bytes that the file really has. -/
  present : Nat
  /-- The pages, from the first on. -/
  pages : Array ByteArray
  /-- The room on pages for which it has been counted. -/
  rooms : List (Nat × Nat) := []
  isChanged : Bool := false

/-- A step in the use of a volume, which fails when the file turns out to be
damaged. -/
abbrev Storage := StateT Volume Option

def Storage.damaged {α : Type} : Storage α := fun _ => none

def Storage.require (condition : Bool) : Storage Unit := fun volume =>
  if condition then some ((), volume) else none

def Storage.take {α : Type} : Option α → Storage α
  | some value => pure value
  | none => Storage.damaged

/-- A page of a tree. -/
structure Page where
  number : Nat
  data : ByteArray
  /-- Whether nothing hangs below the page. -/
  isLeaf : Bool
  /-- Whether it belongs to a table and not to an index. -/
  isTable : Bool
  /-- The number of its cells. -/
  count : Nat
  /-- The bytes that are free, once they have been counted. -/
  room : Option Nat := none
  /-- Cells for which there is no room yet, with their positions. -/
  extra : List (Nat × ByteArray) := []

/-- A cell of a page. -/
structure Cell where
  offset : Nat
  /-- The number of a row, on a page of a table. -/
  number : Int
  /-- Where the payload starts. -/
  start : Nat
  /-- The bytes of the payload. -/
  size : Nat
  /-- The bytes of the payload that stay on the page. -/
  kept : Nat
  /-- The bytes of the cell. -/
  length : Nat

namespace Page

def head (page : Page) : Nat := if page.number = 1 then 100 else 0

/-- The bytes in front of the payload of a cell that refer to a page below. -/
def childSize (page : Page) : Nat := if page.isLeaf then 0 else 4

def first (page : Page) : Nat := page.head + 8 + page.childSize

def markOf (isLeaf isTable : Bool) : Nat :=
  (if isTable then 5 else 2) + (if isLeaf then 8 else 0)

def ofBytes? (number : Nat) (data : ByteArray) : Option Page :=
  let head := if number = 1 then 100 else 0
  let mark := byteAt data head
  let count := halfAt data (head + 3)
  let isLeaf := decide (8 ≤ mark)
  let isTable := decide (mark % 8 = 5)
  if mark = markOf isLeaf isTable ∧ count ≤ (data.size - 8) / 6 then
    some { number, data, isLeaf, isTable, count }
  else none

def pointer (page : Page) (index : Nat) : Nat := halfAt page.data (page.first + 2 * index)

def offsetOf (page : Page) (index : Nat) : Nat := page.pointer index % page.data.size

def lastChild (page : Page) : Nat := wordAt page.data (page.head + 8)

/-- The page below a cell, or below the page behind all cells. -/
def child (page : Page) (index : Nat) : Nat :=
  if index < page.count then wordAt page.data (page.offsetOf index) else page.lastChild

def mostKept (page : Page) (usable : Nat) : Nat :=
  if page.isTable then Image.mostInTable usable else Image.mostInIndex usable

/-- The size of a payload in variable width, of which all bytes have seven bits,
with the offset behind it. -/
def sizeFrom (data : ByteArray) : Nat → Nat → Nat → Nat × Nat
  | 0, value, offset => (value * 128 + byteAt data offset % 128, offset + 1)
  | left + 1, value, offset =>
      let byte := byteAt data offset
      if byte < 128 then (value * 128 + byte, offset + 1)
      else sizeFrom data left (value * 128 + (byte - 128)) (offset + 1)

/-- Reads a cell from some bytes, which need not be those of the page. -/
def cellIn (page : Page) (usable : Nat) (data : ByteArray) (offset : Nat) : Cell :=
  if page.isTable ∧ !page.isLeaf then
    let (number, start) := varintAt data (offset + 4)
    { offset, number := signed 8 number, start, size := 0, kept := 0, length := start - offset }
  else
    let (size, next) := sizeFrom data 8 0 (offset + page.childSize)
    let size := size % patterns 4
    let (number, start) := if page.isTable then varintAt data next else (0, next)
    let kept := Image.localSize usable (page.mostKept usable) size
    let length := start - offset + kept + (if kept = size then 0 else 4)
    { offset, number := signed 8 number, start, size, kept, length := max 4 length }

def cell (page : Page) (usable index : Nat) : Cell :=
  page.cellIn usable page.data (page.offsetOf index)

def put (page : Page) (offset : Nat) (bytes : ByteArray) : Page :=
  { page with data := replaceAt page.data offset bytes }

def putByte (page : Page) (offset value : Nat) : Page :=
  page.put offset (bytesOf [UInt8.ofNat value])

def putHalf (page : Page) (offset value : Nat) : Page := page.put offset (halfBytes value)

def putWord (page : Page) (offset value : Nat) : Page := page.put offset (wordBytes value)

/-- The page with some of its bytes moved to another offset. -/
def move (page : Page) (source size target : Nat) : Page :=
  page.put target (page.data.extract source (source + size))

end Page

namespace Volume

def ofImage (image : Image) : Volume :=
  { pageSize := image.pageSize
    usable := image.usable
    present := image.bytes.size
    pages := ((List.range image.pageCount).map fun index => image.page (index + 1)).toArray }

def count (volume : Volume) : Nat := volume.pages.size

def bytes? (volume : Volume) (number : Nat) : Option ByteArray :=
  if number = 0 then none else volume.pages[number - 1]?

def page? (volume : Volume) (number : Nat) : Option Page :=
  match volume.bytes? number with
  | none => none
  | some data =>
      (Page.ofBytes? number data).map fun page =>
        { page with room := volume.rooms.lookup number }

def word (volume : Volume) (offset : Nat) : Nat :=
  wordAt (volume.pages.getD 0 ByteArray.empty) offset

def encoding (volume : Volume) : Encoding := .ofNumber (volume.word 56)

/-! ### Payloads -/

/-- The page that follows in a chain and the bytes of a part of a page of the
chain.  A part that is read straight from the file has to be there. -/
def linkPart? (volume : Volume) (number start size : Nat) (isStraight : Bool) :
    Option (Nat × ByteArray) :=
  if isStraight && !volume.isChanged &&
      decide ((number - 1) * volume.pageSize + 4 + size > volume.present) then none
  else
    (volume.bytes? number).map fun data =>
      (wordAt data 0, data.extract (4 + start) (4 + start + size))

/-- Reads some bytes from a chain, given those that have been read before. -/
def chain? (volume : Volume) : Nat → Nat → Nat → Nat → ByteArray → Option ByteArray
  | 0, _, _, _, _ => none
  | fuel + 1, number, skipped, size, before =>
      let most := volume.usable - 4
      if size = 0 then some before
      else if number = 0 then none
      else if most ≤ skipped then
        match volume.bytes? number with
        | none => none
        | some data => volume.chain? fuel (wordAt data 0) (skipped - most) size before
      else
        let part := min size (most - skipped)
        match volume.linkPart? number skipped part (skipped == 0 && decide (4 ≤ before.size)) with
        | none => none
        | some (next, bytes) => volume.chain? fuel next 0 (size - part) (before ++ bytes)

/-- Some bytes of the payload of a cell, from an offset on. -/
def payloadPart? (volume : Volume) (page : Page) (cell : Cell) (offset size : Nat) :
    Option ByteArray :=
  if cell.start + cell.kept > volume.usable then none
  else
    let here := min size (cell.kept - offset)
    let start := cell.start + offset
    let before := page.data.extract start (start + here)
    volume.chain? (volume.count + 2 + cell.size / (volume.usable - 4))
      (wordAt page.data (cell.start + cell.kept)) (offset - cell.kept) (size - here) before

def payload? (volume : Volume) (page : Page) (cell : Cell) : Option ByteArray :=
  volume.payloadPart? page cell 0 cell.size

end Volume

namespace Storage

def page (number : Nat) : Storage Page := do take ((← get).page? number)

def usable : Storage Nat := do return (← get).usable

/-- Writes a page of a tree back.  The description of the file, which stands on the first
page, stays as it is. -/
def put (page : Page) : Storage Unit :=
  modify fun volume =>
    let rooms := volume.rooms.filter fun entry => entry.1 != page.number
    let front := (volume.pages.getD (page.number - 1) ByteArray.empty).extract 0 page.head
    { volume with
      pages := volume.pages.setIfInBounds (page.number - 1)
        (front ++ page.data.extract page.head page.data.size)
      rooms := match page.room with
        | some room => (page.number, room) :: rooms
        | none => rooms
      isChanged := true }

def bytes (number : Nat) : Storage ByteArray := do take ((← get).bytes? number)

def putBytes (number : Nat) (data : ByteArray) : Storage Unit :=
  modify fun volume =>
    { volume with
      pages := volume.pages.setIfInBounds (number - 1) (resize data volume.pageSize)
      rooms := volume.rooms.filter fun entry => entry.1 != number
      isChanged := true }

def word (offset : Nat) : Storage Nat := do return (← get).word offset

def putWord (offset value : Nat) : Storage Unit :=
  modify fun volume =>
    { volume with
      pages := volume.pages.modify 0 fun page => replaceAt page offset (wordBytes value)
      isChanged := true }

end Storage

end Pages

end BlockStage

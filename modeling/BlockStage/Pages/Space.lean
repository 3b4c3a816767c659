import BlockStage.Pages.Volume

/-!
# Room on a page

The cells of a page fill it from its end, while the offsets of the cells grow from
its front.  What a removed cell leaves behind becomes a block in a chain of free
blocks, in ascending order, and bits of fewer than four bytes are only counted.  A
new cell goes into a free block or into the gap in the middle, and when both are too
small although there is room enough, the cells are moved together.
-/

namespace BlockStage

namespace Pages

namespace Page

def content (page : Page) : Nat := halfAt page.data (page.head + 5)

/-- Where the cells start, of which nought stands for the end of the largest page. -/
def contentStart (page : Page) : Nat := if page.content = 0 then 65536 else page.content

def firstBlock (page : Page) : Nat := halfAt page.data (page.head + 1)

def fragments (page : Page) : Nat := byteAt page.data (page.head + 7)

def gap (page : Page) : Nat := page.first + 2 * page.count

/-- The bytes in the free blocks from one on, if the blocks are in order and on the
page. -/
def blocksFrom? (page : Page) (usable : Nat) : Nat → Nat → Option Nat
  | 0, _ => none
  | fuel + 1, offset =>
      let next := halfAt page.data offset
      let size := halfAt page.data (offset + 2)
      if offset + 4 > usable then none
      else if offset + size + 3 < next then (page.blocksFrom? usable fuel next).map (size + ·)
      else if next > 0 ∨ offset + size > usable then none
      else some size

/-- Counts the room on the page, unless that has been done.  What the page says
about its room has to fit. -/
def counted? (page : Page) (usable : Nat) : Option Page :=
  if page.room.isSome then some page
  else
    let first := page.firstBlock
    let blocks :=
      if first = 0 then some 0
      else if first < page.contentStart then none
      else page.blocksFrom? usable usable first
    match blocks with
    | none => none
    | some blocks =>
        let room := page.fragments + page.contentStart + blocks
        if room ≤ usable ∧ page.gap ≤ room then some { page with room := some (room - page.gap) }
        else none

def free (page : Page) : Nat := page.room.getD 0

/-! ### Giving room back -/

/-- The free block behind an offset, and the place where the chain refers to it. -/
def blockBehind? (page : Page) (start : Nat) : Nat → Nat → Option (Nat × Nat)
  | 0, _ => none
  | fuel + 1, link =>
      let block := halfAt page.data link
      if start ≤ block then some (link, block)
      else if link < block then page.blockBehind? start fuel block
      else if block = 0 then some (link, 0)
      else none

/-- Some bytes that become free, joined with the free blocks next to them: where
they start and end, the place where the chain refers to them, the block behind
them, and the bits between them that were counted. -/
structure Joining where
  start : Nat
  finish : Nat
  link : Nat
  behind : Nat
  bits : Nat

/-- Joins bytes that become free with the block behind them. -/
def joinBehind? (page : Page) (usable : Nat) (joining : Joining) : Option Joining :=
  let behind := joining.behind
  if behind = 0 ∨ joining.finish + 3 < behind then some joining
  else
    let finish := behind + halfAt page.data (behind + 2)
    if joining.finish > behind ∨ finish > usable then none
    else
      some { joining with
        finish, behind := halfAt page.data behind, bits := behind - joining.finish }

/-- Joins bytes that become free with the block in front of them. -/
def joinFront? (page : Page) (joining : Joining) : Option Joining :=
  let finish := joining.link + halfAt page.data (joining.link + 2)
  if joining.link ≤ page.head + 1 ∨ finish + 3 < joining.start then some joining
  else if finish > joining.start then none
  else
    some { joining with
      start := joining.link, bits := joining.bits + (joining.start - finish) }

/-- Joins bytes that become free with the blocks next to them. -/
def joined? (page : Page) (usable start size : Nat) : Option Joining :=
  let link := page.head + 1
  if page.firstBlock = 0 then some ⟨start, start + size, link, 0, 0⟩
  else
    match page.blockBehind? start usable link with
    | none => none
    | some (link, behind) =>
        if behind + 4 > usable then none
        else
          match page.joinBehind? usable ⟨start, start + size, link, behind, 0⟩ with
          | none => none
          | some joining => page.joinFront? joining

def release? (page : Page) (usable start size : Nat) : Option Page :=
  match page.joined? usable start size with
  | none => none
  | some joining =>
      if joining.bits > page.fragments then none
      else
        let head := page.head
        let content := page.content
        let page := { page with room := some (page.free + size) }
        let page :=
          if joining.bits = 0 then page
          else page.putByte (head + 7) (page.fragments - joining.bits)
        if joining.start > content then
          some (((page.putHalf joining.link joining.start).putHalf joining.start
            joining.behind).putHalf (joining.start + 2) (joining.finish - joining.start))
        else if joining.start < content ∨ joining.link ≠ head + 1 then none
        else
          some ((page.putHalf (head + 1) joining.behind).putHalf (head + 5) joining.finish)

def emptied (page : Page) (usable : Nat) : Page :=
  let head := page.head
  let page := page.put (head + 1) (zeros 4 ++ halfBytes usable ++ zeros 1)
  { page with count := 0, room := some (usable - page.first), extra := [] }

def drop? (page : Page) (usable index length : Nat) : Option Page :=
  let offset := page.pointer index
  if offset + length > usable then none
  else
    match page.release? usable offset length with
    | none => none
    | some page =>
        let place := page.first + 2 * index
        let count := page.count - 1
        if count = 0 then some (page.emptied usable)
        else
          let page := page.move (place + 2) (2 * (count - index)) place
          some { page.putHalf (page.head + 3) count with
            count, room := some (page.free + 2) }

/-! ### Moving cells together -/

/-- Moves the cells from a position on to the end of the page, given where the
cells behind them start. -/
def pack? (page : Page) (usable start : Nat) (source : ByteArray) :
    Nat → Nat → Page → Option (Page × Nat)
  | 0, finish, packed => some (packed, finish)
  | left + 1, finish, packed =>
      let index := page.count - (left + 1)
      let offset := page.pointer index
      let length := (page.cellIn usable source offset).length
      if offset + 4 > usable ∨ finish < start + length ∨ offset + length > usable then none
      else
        let target := finish - length
        page.pack? usable start source left target
          ((packed.putHalf (page.first + 2 * index) target).put target
            (source.extract offset (offset + length)))

/-- Moves the cells in front of a free block, and those between two free blocks,
to the end.  Gives the page and where its cells start. -/
def slide? (page : Page) (usable block second : Nat) : Option (Page × Nat) :=
  let start := page.content
  let size := halfAt page.data (block + 2)
  let further := if second = 0 then 0 else halfAt page.data (second + 2)
  let total := size + further
  if start ≥ block then none
  else if second ≠ 0 ∧ (block + size > second ∨ second + further > usable) then none
  else if second = 0 ∧ block + size > usable then none
  else
    let moved :=
      if second = 0 then page
      else page.move (block + size) (second - (block + size)) (block + total)
    let moved := moved.move start (block - start) (start + total)
    let pointers := (List.range page.count).map fun index =>
      let pointer := moved.pointer index
      if pointer < block then pointer + total
      else if pointer < second then pointer + further
      else pointer
    some (moved.put page.first (joined (pointers.map halfBytes)), start + total)

/-- The two free blocks of a page that has at most two of them, if their cells may
be moved as a whole, with at most so many bytes in bits. -/
def slidable? (page : Page) (usable : Nat) (mostBits : Int) : Option (Option (Nat × Nat)) :=
  let block := page.firstBlock
  if (page.fragments : Int) > mostBits then some none
  else if block + 4 > usable ∧ block ≠ 0 then none
  else if block = 0 then some none
  else
    let second := halfAt page.data block
    if second + 4 > usable ∧ second ≠ 0 then none
    else if second = 0 ∨ halfAt page.data second = 0 then some (some (block, second))
    else some none

/-- Ends the moving together of cells, which start at an offset then. -/
def settled? (page : Page) (start : Nat) : Option Page :=
  let head := page.head
  if page.fragments + start ≠ page.free + page.gap then none
  else
    some (((page.putHalf (head + 5) start).putHalf (head + 1) 0).put page.gap
      (zeros (start - page.gap)))

/-- Moves the cells of the page together, preferring to move them as a whole as
long as there are at most so many bytes in bits. -/
def compact? (page : Page) (usable : Nat) (mostBits : Int) : Option Page :=
  match page.slidable? usable mostBits with
  | none => none
  | some (some (block, second)) =>
      match page.slide? usable block second with
      | none => none
      | some (moved, start) => moved.settled? start
  | some none =>
      match page.pack? usable page.content page.data page.count usable page with
      | none => none
      | some (packed, start) => (packed.putByte (page.head + 7) 0).settled? start

/-! ### Taking room -/

/-- What a search for a free block finds: the page and the offset of a part of a
block that is large enough, none, or damage. -/
inductive Slot where
  | found (page : Page) (offset : Nat)
  | none
  | damaged

/-- Searches the chain of free blocks for some bytes, from a place where the chain
refers to a block. -/
def slotFrom (page : Page) (usable size : Nat) : Nat → Nat → Slot
  | 0, _ => .damaged
  | fuel + 1, link =>
      let block := halfAt page.data link
      let length := halfAt page.data (block + 2)
      if block + size > usable then if block + 4 > usable then .damaged else .none
      else if size ≤ length then
        let excess := length - size
        if excess < 4 then
          if page.fragments > 57 then .none
          else
            .found ((page.putHalf link (halfAt page.data block)).putByte (page.head + 7)
              (page.fragments + excess)) block
        else if block + length > usable then .damaged
        else .found (page.putHalf (block + 2) excess) (block + excess)
      else
        let next := halfAt page.data block
        if next ≤ block then if next = 0 then .none else .damaged
        else page.slotFrom usable size fuel block

def slot (page : Page) (usable size : Nat) : Slot :=
  page.slotFrom usable size usable (page.head + 1)

/-- Takes bytes from the gap between the offsets and the cells, moving the cells
together if it is too small. -/
def fromGap? (page : Page) (usable size top : Nat) : Option (Page × Nat) :=
  let compacted :=
    if page.gap + 2 + size > top then
      (page.compact? usable (min 4 ((page.free : Int) - (2 + size)))).map fun page =>
        (page, page.contentStart)
    else some (page, top)
  match compacted with
  | none => none
  | some (page, top) => some (page.putHalf (page.head + 5) (top - size), top - size)

def allocate? (page : Page) (usable size : Nat) : Option (Page × Nat) :=
  let stated := page.content
  let top := if page.gap > stated ∧ stated = 0 ∧ usable = 65536 then 65536 else stated
  if page.gap > top ∨ top > usable then none
  else if page.firstBlock ≠ 0 ∧ page.gap + 2 ≤ top then
    match page.slot usable size with
    | .damaged => none
    | .found found offset => if offset ≤ page.gap then none else some (found, offset)
    | .none => page.fromGap? usable size top
  else page.fromGap? usable size top

/-- Inserts a cell at a position.  Without room for it, it is kept beside the
page. -/
def insert? (page : Page) (usable index : Nat) (cell : ByteArray) : Option Page :=
  if !page.extra.isEmpty ∨ cell.size + 2 > page.free then
    some { page with extra := page.extra ++ [(index, cell)] }
  else
    match page.allocate? usable cell.size with
    | none => none
    | some (page, offset) =>
        let place := page.first + 2 * index
        let page := page.put offset cell
        let page := page.move place (2 * (page.count - index)) (place + 2)
        let page := (page.putHalf place offset).putHalf (page.head + 3) (page.count + 1)
        some { page with count := page.count + 1, room := some (page.free - (2 + cell.size)) }

end Page

end Pages

end BlockStage

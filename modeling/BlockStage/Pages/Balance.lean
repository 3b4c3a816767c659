import BlockStage.Pages.Supply

/-!
# Keeping a tree in balance

A page that has too many cells shares them with up to two of its neighbours, or with
new pages, and so does a page that is nearly empty.  The cells that divide the
neighbours on the page above are part of what is shared, except in a table, where
the page above has numbers of rows only.  When the root overflows, its cells move to
a new page below it; when it has only one page below it left, the cells of that page
move up.
-/

namespace BlockStage

namespace Pages

/-- A cell on its way to another page. -/
structure Piece where
  bytes : ByteArray
  /-- The position among the neighbours of the page where it stands, and its offset
  there. -/
  home : Option (Nat × Nat) := none
  /-- Whether the page ends before the cell does. -/
  isCut : Bool := false

/-- Neighbours that share their cells. -/
structure Family where
  /-- The page above, without the cells that divided the neighbours. -/
  parent : Page
  /-- The position of the first neighbour on the page above. -/
  start : Nat
  /-- Where the page above refers to the last neighbour. -/
  right : Nat
  members : List Page
  pieces : Array Piece := #[]
  /-- For each neighbour, where its cells end among all. -/
  ends : List Nat := []
  isLeaf : Bool
  /-- Whether the cells of the neighbours are rows. -/
  hasRows : Bool

namespace Family

def space (family : Family) (usable : Nat) : Nat := usable - 12 + (if family.isLeaf then 4 else 0)

def pieceAt (usable : Nat) (member : Nat) (page : Page) (index : Nat) : Piece :=
  let offset := page.offsetOf index
  let length := (page.cellIn usable page.data offset).length
  { bytes := resize (page.data.extract offset (offset + length)) length
    home := some (member, offset)
    isCut := decide (offset + length > page.data.size) }

/-- The cells of a page, those without room included. -/
def piecesOf (usable : Nat) (member : Nat) (page : Page) : List Piece :=
  let placed := (List.range page.count).map (pieceAt usable member page)
  match page.extra with
  | [] => placed
  | (first, _) :: _ =>
      placed.take first ++ page.extra.map (fun entry => { bytes := entry.2 }) ++ placed.drop first

/-- A cell that divided a neighbour from the next one, in the form of the cells of
the neighbours. -/
def dividerPiece (page : Page) (divider : ByteArray) : Piece :=
  let body := divider.extract 4 divider.size
  if page.isLeaf then { bytes := if body.size < 4 then resize body 4 else body }
  else { bytes := page.data.extract 8 12 ++ body }

/-- Gathers all cells, given the cells that divided the neighbours. -/
def gathered (usable : Nat) (family : Family) :
    Nat → List Page → List ByteArray → Array Piece → List Nat → Family
  | _, [], _, pieces, ends => { family with pieces, ends := ends.reverse }
  | member, page :: pages, dividers, pieces, ends =>
      let pieces := pieces ++ (piecesOf usable member page).toArray
      let ends := pieces.size :: ends
      match dividers with
      | divider :: dividers =>
          if family.hasRows then gathered usable family (member + 1) pages dividers pieces ends
          else
            gathered usable family (member + 1) pages dividers
              (pieces.push (dividerPiece page divider)) ends
      | [] => gathered usable family (member + 1) pages [] pieces ends

def cost (family : Family) (index : Nat) : Int :=
  ((family.pieces[index]?.map fun piece => piece.bytes.size).getD 0 : Nat) + 2

/-- The bytes that the cells of a page take with their offsets. -/
def load (space : Nat) (page : Page) : Int :=
  let extra := page.extra.foldl (fun sum entry => sum + entry.2.size + 2) 0
  (space : Int) - page.free + (extra : Nat)

end Family

/-- How cells are shared out: for each page the bytes that it takes, and where its
cells end among all. -/
structure Sharing where
  sizes : Array Int
  ends : Array Nat
  /-- The number of pages. -/
  count : Nat

namespace Sharing

def size (sharing : Sharing) (index : Nat) : Int := sharing.sizes.getD index 0

def finish (sharing : Sharing) (index : Nat) : Nat := sharing.ends.getD index 0

/-- Where the cells of a page start, if dividing cells are not counted. -/
def start (sharing : Sharing) (index : Nat) : Nat :=
  if index = 0 then 0 else sharing.finish (index - 1)

def set (sharing : Sharing) (index : Nat) (size : Int) (finish : Nat) : Sharing :=
  { sharing with
    sizes := sharing.sizes.setIfInBounds index size
    ends := sharing.ends.setIfInBounds index finish }

def most : Nat := 5

/-- What the next page gets or gives when the cells of a page end elsewhere: its
own first cell, or the dividing cell that takes its place. -/
def passed (family : Family) (index : Nat) (moved : Int) : Int :=
  if family.hasRows then moved
  else if index < family.pieces.size then family.cost index
  else 0

/-- Moves cells from the end of a page to the next one until the page is not
overfull. -/
def pushOn (family : Family) (space : Nat) (index : Nat) : Nat → Sharing → Option Sharing
  | 0, _ => none
  | fuel + 1, sharing =>
      if sharing.size index ≤ space then some sharing
      else if index + 1 ≥ sharing.count ∧ index + 2 > most then none
      else
        let sharing :=
          if index + 1 < sharing.count then sharing
          else { sharing.set (index + 1) 0 family.pieces.size with count := index + 2 }
        let finish := sharing.finish index
        let moved := family.cost (finish - 1)
        let next := sharing.set (index + 1)
          (sharing.size (index + 1) + passed family finish moved) (sharing.finish (index + 1))
        if finish = 0 then none
        else
          pushOn family space index fuel (next.set index (sharing.size index - moved) (finish - 1))

/-- Moves cells from the next pages to the end of a page as long as there is room. -/
def pullBack (family : Family) (space : Nat) (index : Nat) : Nat → Sharing → Sharing
  | 0, sharing => sharing
  | fuel + 1, sharing =>
      let finish := sharing.finish index
      let moved := family.cost finish
      if finish < family.pieces.size ∧ sharing.size index + moved ≤ space then
        let next := sharing.set (index + 1)
          (sharing.size (index + 1) - passed family (finish + 1) moved)
          (sharing.finish (index + 1))
        pullBack family space index fuel (next.set index (sharing.size index + moved) (finish + 1))
      else sharing

/-- Fills the pages one after the other, from one on. -/
def fill (family : Family) (space : Nat) : Nat → Nat → Sharing → Option Sharing
  | 0, _, sharing => some sharing
  | fuel + 1, index, sharing =>
      if index ≥ sharing.count then some sharing
      else
        let cells := family.pieces.size
        match pushOn family space index (cells + 2) sharing with
        | none => none
        | some sharing =>
            let sharing := pullBack family space index (cells + 1) sharing
            if sharing.finish index ≥ cells then some { sharing with count := index + 1 }
            else if sharing.finish index ≤ sharing.start index then none
            else fill family space fuel (index + 1) sharing

/-- Moves cells from the end of a page to the next one as long as that makes the two
more alike.  The next page may not stay empty. -/
def even (family : Family) (isLast : Bool) (index : Nat) : Nat → Nat → Sharing → Sharing
  | 0, _, sharing => sharing
  | fuel + 1, last, sharing =>
      let left := sharing.size (index - 1)
      let right := sharing.size index
      let given := family.cost last
      let taken := family.cost (if family.hasRows then last else last + 1)
      if right ≠ 0 ∧ right + taken > left - (given - (if isLast then 2 else 0)) then sharing
      else
        let sharing := (sharing.set index (right + taken) (sharing.finish index)).set (index - 1)
          (left - given) last
        if last = 0 then sharing else even family isLast index fuel (last - 1) sharing

/-- Makes neighbouring pages more alike, from the last one on. -/
def evenAll (family : Family) : Nat → Sharing → Option Sharing
  | 0, sharing => some sharing
  | index + 1, sharing =>
      let page := index + 1
      let shared := even family (page + 1 == sharing.count) page (family.pieces.size + 1)
        (sharing.finish index - 1) sharing
      if shared.finish index ≤ shared.start index then none else evenAll family index shared

def of? (family : Family) (usable : Nat) : Option Sharing :=
  let space := family.space usable
  let fillUp := fun count : Nat => List.replicate (most + 1 - count) 0
  let count := family.members.length
  let sharing : Sharing :=
    { sizes := (family.members.map (Family.load space) ++ (fillUp count).map Int.ofNat).toArray
      ends := (family.ends ++ fillUp count).toArray
      count }
  match fill family space (most + 1) 0 sharing with
  | none => none
  | some sharing => evenAll family (sharing.count - 1) sharing

end Sharing

/-! ### Filling pages -/

namespace Page

/-- Puts cells into free blocks of the page or in front of its other cells, as long
as there is room, from an offset of the list of offsets on.  Gives the page and
where its cells start. -/
def addPieces? (page : Page) (usable limit : Nat) :
    List Piece → Nat → Nat → Option (Page × Nat)
  | [], top, _ => some (page, top)
  | piece :: pieces, top, place =>
      let size := piece.bytes.size
      let slot := if page.firstBlock = 0 then .none else page.slot usable size
      let placed := match slot with
        | .found found offset => some (found, offset, top)
        | _ => if top < limit + size then none else some (page, top - size, top - size)
      match placed with
      | none => none
      | some (page, offset, top) =>
          if piece.isCut then none
          else
            ((page.put offset piece.bytes).putHalf place offset).addPieces? usable limit pieces top
              (place + 2)

/-- Joins a stretch of bytes to one that it touches, or adds it. -/
def addStretch (start finish : Nat) : List (Nat × Nat) → List (Nat × Nat)
  | [] => [(start, finish)]
  | (first, last) :: stretches =>
      if first = finish then (start, last) :: stretches
      else if last = start then (first, finish) :: stretches
      else (first, last) :: addStretch start finish stretches

def releaseAll (page : Page) (usable : Nat) (stretches : List (Nat × Nat)) : Page :=
  stretches.foldl
    (fun page stretch => (page.release? usable stretch.1 (stretch.2 - stretch.1)).getD page) page

/-- Gives back the room of those cells that stand on the page, and counts them. -/
def removePieces (page : Page) (usable member : Nat) :
    List Piece → List (Nat × Nat) → Nat → Page × Nat
  | [], stretches, count => (page.releaseAll usable stretches, count)
  | piece :: pieces, stretches, count =>
      match piece.home with
      | none => page.removePieces usable member pieces stretches count
      | some (home, offset) =>
          if home ≠ member ∨ offset < page.first ∨ offset ≥ usable then
            page.removePieces usable member pieces stretches count
          else
            let finish := offset + piece.bytes.size
            let joined := addStretch offset finish stretches
            if joined.length > 10 then
              (page.releaseAll usable stretches).removePieces usable member pieces
                [(offset, finish)] (count + 1)
            else page.removePieces usable member pieces joined (count + 1)

def rebuilt? (page : Page) (usable : Nat) (pieces : List Piece) : Option Page :=
  let rec place : List Piece → Nat → Nat → Page → Option (Page × Nat)
    | [], top, _, page => some (page, top)
    | piece :: pieces, top, offset, page =>
        let size := piece.bytes.size
        if piece.isCut ∨ top < size + offset + 2 then none
        else
          place pieces (top - size) (offset + 2)
            ((page.put (top - size) piece.bytes).putHalf offset (top - size))
  match place pieces usable page.first page with
  | none => none
  | some (page, top) =>
      let head := page.head
      some { page.put (head + 1) (halfBytes 0 ++ halfBytes pieces.length ++ halfBytes top ++ zeros 1)
        with count := pieces.length, extra := [] }

def between (pieces : Array Piece) (start finish : Nat) : List Piece :=
  (pieces.extract start finish).toList

/-- Inserts the cells for which there was no room and that belong to the page now.
Gives the page, where its cells start, and how many there are. -/
def addExtra? (page : Page) (usable limit : Nat) (pieces : Array Piece) (start : Int)
    (wanted first : Nat) : List Nat → Nat → Nat → Option (Page × Nat × Nat)
  | [], top, count => some (page, top, count)
  | index :: indices, top, count =>
      let position := start + index - first
      if position < 0 ∨ position ≥ wanted then
        page.addExtra? usable limit pieces start wanted first indices top count
      else
        let position := position.toNat
        let place := page.first + 2 * position
        let moved := if count > position then page.move place (2 * (count - position)) (place + 2)
          else page
        match moved.addPieces? usable limit (between pieces (first + position)
            (first + position + 1)) top place with
        | none => none
        | some (page, top) =>
            page.addExtra? usable limit pieces start wanted first indices top (count + 1)

/-- Changes which of all cells stand on the page, if they fit in without moving
others: from those from `old` on to a number of them from `new` on. -/
def edited? (page : Page) (usable member old new wanted : Nat) (pieces : Array Piece) :
    Option Page :=
  let oldEnd := old + page.count + page.extra.length
  let newEnd := new + wanted
  let limit := page.first + 2 * wanted
  let (shrunk, count) :=
    if old < new then
      let (removed, shift) := page.removePieces usable member (between pieces old new) [] 0
      (removed.move (page.first + 2 * shift) (2 * page.count) page.first, page.count - shift)
    else (page, page.count)
  let (shrunk, count) :=
    if newEnd < oldEnd then
      let (removed, tail) := shrunk.removePieces usable member (between pieces newEnd oldEnd) [] 0
      (removed, count - tail)
    else (shrunk, count)
  let top := shrunk.content
  if top < limit then none
  else
    let added := min wanted (old - new)
    let fronted :=
      if new < old then
        ((shrunk.move page.first (2 * count) (page.first + 2 * added)).addPieces? usable limit
          (between pieces new (new + added)) top page.first).map fun (page, top) =>
            (page, top, count + added)
      else some (shrunk, top, count)
    match fronted with
    | none => none
    | some (fronted, top, count) =>
        match fronted.addExtra? usable limit pieces old wanted new (page.extra.map Prod.fst) top
            count with
        | none => none
        | some (filled, top, count) =>
            match filled.addPieces? usable limit (between pieces (new + count) newEnd) top
                (page.first + 2 * count) with
            | none => none
            | some (filled, top) =>
                let head := page.head
                some { (filled.putHalf (head + 3) wanted).putHalf (head + 5) top with
                  count := wanted, extra := [] }

def withPieces? (page : Page) (usable member old new wanted : Nat) (pieces : Array Piece) :
    Option Page :=
  match page.edited? usable member old new wanted pieces with
  | some page => some page
  | none =>
      if wanted = 0 then none else page.rebuilt? usable (between pieces new (new + wanted))

def blank (number : Nat) (data : ByteArray) (isLeaf isTable : Bool) (usable : Nat) : Page :=
  let page : Page := { number, data, isLeaf, isTable, count := 0 }
  (page.putByte page.head (markOf isLeaf isTable)).emptied usable

def copiedTo? (page : Page) (usable number : Nat) (target : ByteArray) : Option Page :=
  let head := if number = 1 then 100 else 0
  let start := page.content
  let data := replaceAt target start (page.data.extract start usable)
  let data := replaceAt data head (page.data.extract page.head
    (page.head + (page.first + 2 * page.count)))
  match Page.ofBytes? number (resize data target.size) with
  | none => none
  | some copy => copy.counted? usable

end Page

/-! ### Balancing -/

namespace Storage

def countedPage (number : Nat) : Storage Page := do
  let page ← page number
  take (page.counted? (← usable))

/-- Takes the cell with a position from the page above, which may be one without
room there. -/
def takeDivider (position : Nat) (parent : Page) : Storage (Page × ByteArray) := do
  let usable ← usable
  let waiting := parent.extra.find? fun entry => entry.1 == position
  match waiting with
  | some (_, cell) => return ({ parent with extra := [] }, cell)
  | none =>
      let index := position - parent.extra.length
      let offset := parent.offsetOf index
      let length := (parent.cellIn usable parent.data offset).length
      let cell := parent.data.extract offset (offset + length)
      let parent ← take (parent.drop? usable index length)
      return (parent, cell)

/-- Reads the neighbours from the last one on, and takes the cells that divide them
from the page above.  A page in hand is not read again. -/
def takeMembers (inHand : Page) (start : Nat) :
    Nat → Page → Nat → Storage (Page × List Page × List ByteArray)
  | 0, parent, number => do
      let member ← if number = inHand.number then pure inHand else countedPage number
      return (parent, [member], [])
  | left + 1, parent, number => do
      let member ← if number = inHand.number then pure inHand else countedPage number
      let (parent, cell) ← takeDivider (start + left) parent
      let (parent, members, dividers) ← takeMembers inHand start left parent (wordAt cell 0)
      return (parent, members ++ [member], dividers ++ [cell])

/-- Finds the neighbours of a page and takes their cells apart. -/
def family (held : List Nat) (parent : Page) (index : Nat) (inHand : Page) : Storage Family := do
  let usable ← usable
  let total := parent.extra.length + parent.count
  let dividers := min 2 total
  let start :=
    if total < 2 ∨ index = 0 then 0
    else if index = total then total - 2
    else index - 1
  let last := dividers + start - parent.extra.length
  let right := if last = parent.count then parent.head + 8 else parent.offsetOf last
  let (parent, members, cells) ←
    takeMembers inHand start dividers parent (wordAt parent.data right)
  let numbers := members.map Page.number
  require (members.all (fun page =>
    page.isLeaf == inHand.isLeaf && page.isTable == inHand.isTable && page.number != 1 &&
      !held.contains page.number) && decide numbers.Nodup)
  let family : Family :=
    { parent, start, right, members, isLeaf := inHand.isLeaf
      hasRows := inHand.isLeaf && inHand.isTable }
  return family.gathered usable 0 members cells #[] []

/-- Takes as many new pages as are needed, each near the one before. -/
def takeNew (held : List Nat) : Nat → Nat → Storage (List Nat)
  | 0, _ => pure []
  | left + 1, near => do
      let number ← allocate held near
      let rest ← takeNew (number :: held) left number
      return number :: rest

/-- Inserts the cells that divide the new pages into the page above.  Gives it and
the new pages, of which those that are no leaves refer to the page below the
dividing cell. -/
def divide (family : Family) (sharing : Sharing) :
    Nat → List Page → Page → Storage (Page × List Page)
  | _, [], parent => pure (parent, [])
  | _, [page], parent => pure (parent, [page])
  | index, page :: pages, parent => do
      let usable ← usable
      let position := sharing.finish index - (if family.hasRows then 1 else 0)
      let piece ← take family.pieces[position]?
      let child := wordBytes page.number
      let cell :=
        if family.hasRows then
          child ++ varintBytes (unsigned 8 (page.cellIn usable piece.bytes 0).number)
        else if family.isLeaf then
          let cell := child ++ piece.bytes
          if piece.bytes.size = 4 then
            cell.extract 0 (parent.cellIn usable cell 0).length
          else cell
        else child ++ piece.bytes.extract 4 piece.bytes.size
      require !piece.isCut
      let page := if family.isLeaf then page else page.put 8 (piece.bytes.extract 0 4)
      let parent ← take (parent.insert? usable (family.start + index) cell)
      let (parent, pages) ← divide family sharing (index + 1) pages parent
      return (parent, page :: pages)

/-- Puts the cells on the pages, which are then written. -/
def putPieces (family : Family) (sharing : Sharing) : Nat → List Page → Storage (List Page)
  | _, [] => pure []
  | index, page :: pages => do
      let usable ← usable
      let skipped := if family.hasRows then 0 else 1
      let new := if index = 0 then 0 else sharing.finish (index - 1) + skipped
      let old :=
        if index = 0 then 0
        else if index < family.members.length then (family.ends.getD (index - 1) 0) + skipped
        else family.pieces.size
      let filled ← take (page.withPieces? usable index old new (sharing.finish index - new)
        family.pieces)
      let filled := { filled with
        room := some ((family.space usable : Int) - sharing.size index).toNat }
      put filled
      let rest ← putPieces family sharing (index + 1) pages
      return filled :: rest

/-- Moves the cells of the only page below a root up to it. -/
def shallower (parent only : Page) : Storage Page := do
  let usable ← usable
  let only ← take (only.compact? usable (-1))
  let parent ← take (only.copiedTo? usable parent.number parent.data)
  put parent
  giveBack only.number
  return parent

/-- Shares the cells of a page with its neighbours.  Gives the page above. -/
def shareOut (held : List Nat) (parent : Page) (index : Nat) (isRoot : Bool) (inHand : Page) :
    Storage Page := do
  let usable ← usable
  let family ← family held parent index inHand
  let sharing ← take (Sharing.of? family usable)
  let members := family.members
  let kept := members.take sharing.count
  let numbers := members.map Page.number
  let taken ← takeNew (numbers ++ held) (sharing.count - members.length) (numbers.headD 0)
  let fresh ← taken.mapM fun number => do
    return Page.blank number (← bytes number) inHand.isLeaf inHand.isTable usable
  let sorted := ((kept ++ fresh).map Page.number).mergeSort fun first second =>
    decide (first ≤ second)
  let pages := ((kept ++ fresh).zip sorted).map fun (page, number) => { page with number }
  let parent := family.parent.putWord family.right (sorted.getLastD 0)
  let lastChild := (members.getLast?.map fun page => page.data.extract 8 12).getD ByteArray.empty
  let pages :=
    if inHand.isLeaf ∨ members.length = pages.length then pages
    else
      pages.dropLast ++ (pages.getLast?.map fun page => page.put 8 lastChild).toList
  let (parent, pages) ← divide family sharing 0 pages parent
  let pages ← putPieces family sharing 0 pages
  let parent ←
    match pages with
    | only :: _ =>
        if isRoot && parent.count == 0 && parent.extra.isEmpty &&
            decide (parent.head ≤ only.free) then
          shallower parent only
        else do
          put parent
          pure parent
    | [] => damaged
  (members.drop sharing.count).forM fun page => giveBack page.number
  return parent

/-- Moves the cells of a root that overflows to a new page below it.  Gives the two
pages. -/
def deeper (root : Page) : Storage (Page × Page) := do
  let usable ← usable
  let number ← allocate [root.number] root.number
  let child ← take (root.copiedTo? usable number (← bytes number))
  let child := { child with extra := root.extra }
  let root := Page.blank root.number root.data false root.isTable usable
  let root := root.putWord (root.head + 8) number
  put root
  put { child with extra := [] }
  return (root, child)

/-- Puts the one row for which there is no room at the end of a table on a page of
its own.  Gives the page above. -/
def appendPage (held : List Nat) (parent : Page) (inHand : Page) (cell : ByteArray) :
    Storage Page := do
  let usable ← usable
  require (inHand.count != 0)
  let number ← allocate held 0
  let fresh := Page.blank number (← bytes number) true true usable
  let fresh ← take (fresh.rebuilt? usable [{ bytes := cell }])
  put { fresh with room := some (usable - fresh.first - 2 - cell.size) }
  let last := inHand.cell usable (inHand.count - 1)
  let divider := wordBytes inHand.number ++ varintBytes (unsigned 8 last.number)
  let parent ← take (parent.insert? usable parent.count divider)
  let parent := parent.putWord (parent.head + 8) number
  put parent
  return parent

/-- Balances a tree from a page upward, which may have cells without room, as may
pages on the way.  Gives the number of pages above the one where nothing was left to
do. -/
def balance : Nat → List (Page × Nat) → Page → Storage Nat
  | 0, _, _ => damaged
  | fuel + 1, way, inHand => do
      let usable ← usable
      if inHand.extra.isEmpty ∧ inHand.free * 3 ≤ usable * 2 then
        put inHand
        return way.length
      else
        match way with
        | [] =>
            if inHand.extra.isEmpty then
              put inHand
              return 0
            else
              let (root, child) ← deeper inHand
              balance fuel [(root, 0)] child
        | (above, index) :: way =>
            put { inHand with extra := [] }
            let held := above.number :: way.map fun step => step.1.number
            require !held.contains inHand.number
            let parent := { (← countedPage above.number) with extra := above.extra }
            match inHand.extra with
            | [(position, cell)] =>
                if inHand.isTable ∧ inHand.isLeaf ∧ position = inHand.count ∧ parent.number ≠ 1 ∧
                    parent.count = index then
                  let parent ← appendPage (inHand.number :: held) parent inHand cell
                  balance fuel way parent
                else
                  let parent ← shareOut held parent index way.isEmpty inHand
                  balance fuel way parent
            | _ =>
                let parent ← shareOut held parent index way.isEmpty inHand
                balance fuel way parent

end Storage

end Pages

end BlockStage

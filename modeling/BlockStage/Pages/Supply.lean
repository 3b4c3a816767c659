import BlockStage.Pages.Space

/-!
# Taking pages and giving them back

Pages that nothing uses are listed on some of them, the trunks, which form a chain.
A page is taken from the first trunk, or the trunk itself is taken when it lists
nothing more, and without a trunk the file grows.  A page on the list that is in use
at the same time gives a damaged file away.
-/

namespace BlockStage

namespace Pages

namespace Storage

def grow : Storage Nat := do
  let count := (← get).count + 1
  modify fun volume =>
    { volume with pages := volume.pages.push (zeros volume.pageSize), isChanged := true }
  putWord 28 count
  return count

/-- How far two numbers of pages are apart, as numbers of four bytes. -/
def distance (first second : Nat) : Nat :=
  (signed 4 (unsigned 4 ((first : Int) - second))).natAbs

/-- The position of the page nearest to another one among those that a trunk lists.
Without another one, it is the first. -/
def nearest (trunk : ByteArray) (count near : Nat) : Nat :=
  if near = 0 then 0
  else
    let apart := fun index => distance (wordAt trunk (8 + 4 * index)) near
    (List.range count).foldl (fun best index => if apart index < apart best then index else best)
      0

def takeListed (held : List Nat) (near trunk count : Nat) (data : ByteArray) : Storage Nat := do
  let index := nearest data count near
  let number := wordAt data (8 + 4 * index)
  require (decide (2 ≤ number ∧ number ≤ (← get).count) && !held.contains number)
  let data :=
    if index + 1 < count then
      replaceAt data (8 + 4 * index) (data.extract (4 + 4 * count) (8 + 4 * count))
    else data
  putBytes trunk (replaceAt data 4 (wordBytes (count - 1)))
  return number

/-- Takes a page that nothing uses, if possible near another one.  Some pages are
known to be in use. -/
def allocate (held : List Nat) (near : Nat) : Storage Nat := do
  let free ← word 36
  require (decide (free < (← get).count))
  if free = 0 then grow
  else
    putWord 36 (free - 1)
    let trunk ← word 32
    require (trunk != 1 && !held.contains trunk)
    let data ← bytes trunk
    let count := wordAt data 4
    if count = 0 then
      putWord 32 (wordAt data 0)
      return trunk
    else
      require (decide (count ≤ (← usable) / 4 - 2))
      takeListed held near trunk count data

def giveBack (number : Nat) : Storage Unit := do
  require (decide (2 ≤ number ∧ number ≤ (← get).count))
  let free ← word 36
  putWord 36 (free + 1)
  let trunk ← word 32
  let isListed ←
    if free = 0 then pure false
    else do
      let data ← bytes trunk
      let count := wordAt data 4
      let most := (← usable) / 4
      require (decide (count ≤ most - 2))
      if count < most - 8 then
        putBytes trunk (replaceAt (replaceAt data 4 (wordBytes (count + 1))) (8 + 4 * count)
          (wordBytes number))
        pure true
      else pure false
  if isListed then pure ()
  else
    let data ← bytes number
    putBytes number (replaceAt data 0 (wordBytes (if free = 0 then 0 else trunk) ++ zeros 4))
    putWord 32 number

/-- Gives back the pages of a chain, given their number. -/
def giveBackChain (held : List Nat) : Nat → Nat → Storage Unit
  | 0, _ => pure ()
  | left + 1, number => do
      require (decide (2 ≤ number ∧ number ≤ (← get).count) && !held.contains number)
      let next ← if left = 0 then pure 0 else do pure (wordAt (← bytes number) 0)
      giveBack number
      giveBackChain held left next

/-- Gives back the pages on which the payload of a cell goes on. -/
def clearCell (held : List Nat) (page : Page) (cell : Cell) : Storage Unit := do
  if cell.kept = cell.size then pure ()
  else
    require (decide (cell.offset + cell.length ≤ page.data.size))
    let most := (← usable) - 4
    giveBackChain held ((cell.size - cell.kept + most - 1) / most)
      (wordAt page.data (cell.offset + cell.length - 4))

/-- Writes bytes to a chain of pages, and gives the number of the first. -/
def putChain (held : List Nat) : Nat → Nat → ByteArray → Storage Nat
  | 0, _, _ => damaged
  | fuel + 1, near, rest => do
      let most := (← usable) - 4
      let number ← allocate held near
      let next ←
        if rest.size ≤ most then pure 0
        else putChain (number :: held) fuel number (rest.extract most rest.size)
      let data ← bytes number
      putBytes number (replaceAt data 0 (wordBytes next ++ rest.extract 0 most))
      return number

/-- Makes the cell of a payload with what stands in front of it. -/
def fillCell (held : List Nat) (page : Page) (front payload : ByteArray) : Storage ByteArray := do
  let usable ← usable
  let kept := Image.localSize usable (page.mostKept usable) payload.size
  if kept = payload.size then
    let cell := front ++ payload
    return if cell.size < 4 then resize cell 4 else cell
  else
    let first ← putChain held (payload.size / (usable - 4) + 2) 0
      (payload.extract kept payload.size)
    return front ++ payload.extract 0 kept ++ wordBytes first

end Storage

end Pages

end BlockStage

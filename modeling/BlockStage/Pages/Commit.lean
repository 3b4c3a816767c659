import BlockStage.Pages.Tree

/-!
# Beginning and finishing changes

A change to a file starts by setting right what the file says about its size, and ends
by counting the change.  A map of pages is given up, since it would have to be kept up
to date.
-/

namespace BlockStage

namespace Pages

namespace Volume

/-- The pages of the map of pages, if the file has one.  Each but the last of them
is followed by as many pages as it has places for. -/
def mapPages (volume : Volume) : List Nat :=
  let distance := volume.usable / 5 + 1
  if volume.word 52 = 0 then []
  else
    ((List.range (volume.count / distance + 1)).map (2 + distance * ·)).filter
      fun number => decide (number ≤ volume.count)

def bytes (volume : Volume) : ByteArray := joined volume.pages.toList

end Volume

namespace Storage

def dropMap : Storage Unit := do
  let pages := (← get).mapPages
  putWord 52 0
  putWord 64 0
  pages.forM giveBack

def begin : Storage Unit := do
  putWord 28 (← get).count
  if (← word 52) = 0 then pure () else dropMap
  modify fun volume => { volume with isChanged := false }

def commit : Storage Unit := do
  let change := (← word 24) + 1
  putWord 24 change
  putWord 92 change
  putWord 96 release

end Storage

/-- A file with one page and nothing on it, whose journal has a number. -/
def freshFile (version : Nat) : ByteArray :=
  let head := mark ++ halfBytes (defaultPageSize % 65536) ++
    bytesOf [UInt8.ofNat version, UInt8.ofNat version, 0, 64, 32, 32]
  let page := Page.blank 1 (resize head defaultPageSize) true true defaultPageSize
  replaceAt (replaceAt page.data 24 (wordBytes 1 ++ wordBytes 1)) 92
    (wordBytes 1 ++ wordBytes release)

/-- A file whose journal gets another number, which counts as a change. -/
def Image.withVersion (image : Image) (version : Nat) : ByteArray :=
  let change := wordBytes (wordAt image.bytes 24 + 1)
  let bytes := replaceAt image.bytes 18 (bytesOf [UInt8.ofNat version, UInt8.ofNat version])
  replaceAt (replaceAt bytes 24 (change ++ wordBytes image.pageCount)) 92
    (change ++ wordBytes release)

end Pages

end BlockStage

import BlockStage.Pages.Image

/-!
# Records of unfinished changes

Before pages of a file are changed, they are put into a record beside it.  When a
record is found although nobody is at work, the changes were not finished: the
file is cut to the size that it had, and the pages in the record are put back.
A record comes in sections, each with a head that tells how many pages follow.
What is not in order ends it.
-/

namespace BlockStage

namespace Pages

namespace Rollback

def mark : ByteArray := bytesOf [0xD9, 0xD5, 0x05, 0xF9, 0x20, 0xA1, 0x63, 0xD7]

/-- The state of putting pages back. -/
structure Playback where
  file : ByteArray
  /-- How far the record has been read. -/
  offset : Nat
  /-- The size of a head. -/
  block : Nat
  pageSize : Nat
  /-- The number of pages that the file had. -/
  pageCount : Nat

def isMarkedAt (record : ByteArray) (offset : Nat) : Bool :=
  record.extract offset (offset + mark.size) == mark

/-- Where the next section starts: heads stand at multiples of their size. -/
def nextSection (playback : Playback) : Nat :=
  (playback.offset + playback.block - 1) / playback.block * playback.block

/-- Cuts a file to a number of pages, or makes it grow if a page or more is
missing. -/
def truncate (file : ByteArray) (pageSize pageCount : Nat) : ByteArray :=
  let size := pageSize * pageCount
  if size < file.size then file.extract 0 size
  else if file.size + pageSize ≤ size then resize file (max file.size (min size maxGrowth))
  else file

def restore (file : ByteArray) (pageSize number : Nat) (page : ByteArray) : ByteArray :=
  let start := (number - 1) * pageSize
  if start + pageSize ≤ max maxGrowth file.size then
    replaceAt (if file.size < start then resize file start else file) start page
  else file

/-- The number that guards a page: one chosen for the section, and every two
hundredth byte from the end of the page. -/
def guardOf (seed : Nat) (page : ByteArray) : Nat :=
  let count := (page.size - 1) / 200
  (List.range count).foldl (fun sum index => sum + byteAt page (page.size - 200 * (index + 1))) seed
    % patterns 4

/-- The number of the page that is never used, because locks are put there. -/
def lockPage (pageSize : Nat) : Nat := 1073741824 / pageSize + 1

/-- What became of a page of a section. -/
inductive Step where
  /-- It was put back, or passed over. -/
  | next (playback : Playback)
  /-- It is not in order, and neither is anything behind it. -/
  | stop (playback : Playback)

def pageStep (record : ByteArray) (seed : Nat) (playback : Playback) : Step :=
  let size := playback.pageSize
  let number := wordAt record playback.offset
  let page := record.extract (playback.offset + 4) (playback.offset + 4 + size)
  let after := { playback with offset := playback.offset + size + 8 }
  if playback.offset + 4 + size > record.size ∨ number = 0 ∨ number = lockPage size then
    .stop playback
  else if number > playback.pageCount then .next after
  else if playback.offset + 8 + size > record.size ∨
      guardOf seed page ≠ wordAt record (playback.offset + 4 + size) then .stop playback
  else .next { after with file := restore playback.file size number page }

def pageSteps (record : ByteArray) (seed : Nat) : Nat → Playback → Step
  | 0, playback => .next playback
  | left + 1, playback =>
      match pageStep record seed playback with
      | .stop playback => .stop playback
      | .next playback => pageSteps record seed left playback

/-- The number of pages in the only section of a record that does not tell. -/
def pagesBehind (record : ByteArray) (playback : Playback) : Nat :=
  (record.size - playback.block) / (playback.pageSize + 8)

/-- Plays one section back whose head has been read up to its sizes. -/
def playSection (record : ByteArray) (start : Nat) (playback : Playback) : Step :=
  let stated := wordAt record (start + 8)
  let count := if stated = 0xFFFFFFFF then pagesBehind record playback else stated
  pageSteps record (wordAt record (start + 12)) (min count (record.size / 512 + 1))
    { playback with offset := start + playback.block }

/-- Plays the sections from one on, with fuel for their number. -/
def playFrom (record : ByteArray) : Nat → Playback → ByteArray
  | 0, playback => playback.file
  | fuel + 1, playback =>
      let start := nextSection playback
      if start + playback.block > record.size || !isMarkedAt record start then playback.file
      else
        match playSection record start playback with
        | .stop playback => playback.file
        | .next playback => playFrom record fuel playback

/-- The size of the pages of a file before anything else is known about it. -/
def pageSizeBefore (file : ByteArray) : Nat :=
  if isPageSize (pageSizeOf file) then pageSizeOf file else defaultPageSize

/-- Puts the pages of a record back into a file.  The first head, which has at
least the given size, tells the sizes of heads and pages for all of them. -/
def play (block : Nat) (record file : ByteArray) : ByteArray :=
  let stated := wordAt record 24
  let pageSize := if stated = 0 then pageSizeBefore file else stated
  let ownBlock := wordAt record 20
  if record.size < block || !isMarkedAt record 0 || !isPageSize pageSize ||
      !isPowerWithin 32 65536 ownBlock then file
  else
    let pageCount := wordAt record 16
    let playback : Playback :=
      { file := truncate file pageSize pageCount, offset := 0, block := ownBlock, pageSize,
        pageCount }
    match playSection record 0 playback with
    | .stop playback => playback.file
    | .next playback => playFrom record (record.size / ownBlock + 1) playback

/-! ### Changes to several files -/

/-- The most bytes in the name of a file that a record refers to. -/
def maxReference : Nat := 512

/-- The file to which a record refers at its end, when it belongs to changes to
several files: those are finished when that file is gone. -/
def reference? (record : ByteArray) : Option ByteArray :=
  let finish := record.size - 16
  let length := wordAt record finish
  let name := record.extract (finish - length) finish
  let sum := name.toList.foldl (fun sum byte => sum + unsigned 4 (signed 1 byte.toNat)) 0
  if record.size < 16 ∨ length = 0 ∨ length > maxReference ∨ length > finish ∨
      !isMarkedAt record (finish + 8) ∨ sum % patterns 4 ≠ wordAt record (finish + 4) then none
  else if byteAt name 0 = 0 then none
  else some (bytesOf (name.toList.takeWhile (· != 0)))

end Rollback

end Pages

end BlockStage

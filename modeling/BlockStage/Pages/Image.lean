import BlockStage.Pages.Encoding
import BlockStage.Pages.Record

/-!
# Paged files

A paged file is cut into pages of one size.  The first hundred bytes describe the
file: a mark, the size of its pages, the journals with which it may be written
and read, how many pages there are, and a number that the owner chooses.  The
pages form trees.  The rows of a table hang on the leaves of a tree, each under
its number; the entries of an index hang on all pages of one.  What is too long
for a page goes on in a chain of further pages.
-/

namespace BlockStage

namespace Pages

def mark : ByteArray :=
  bytesOf [0x53, 0x51, 0x4C, 0x69, 0x74, 0x65, 0x20, 0x66, 0x6F, 0x72, 0x6D, 0x61, 0x74, 0x20,
    0x33, 0x00]

def release : Nat := 3046000

def isMarked (bytes : ByteArray) : Bool := bytes.extract 0 mark.size == mark

/-- The number of the journal with which a file may be written. -/
def writeVersion (bytes : ByteArray) : Nat := byteAt bytes 18

/-- The number of the journal with which a file may be read. -/
def readVersion (bytes : ByteArray) : Nat := byteAt bytes 19

def pageSizeOf (bytes : ByteArray) : Nat := byteAt bytes 16 * 256 + byteAt bytes 17 * 65536

def isPageSize (size : Nat) : Bool := isPowerWithin 512 65536 size

def defaultPageSize : Nat := 4096

def maxGrowth : Nat := 4194304

/-- The number of pages in some bytes, of which the last may be cut off. -/
def pagesIn (bytes : ByteArray) (pageSize : Nat) : Nat := (bytes.size + pageSize - 1) / pageSize

/-- A paged file that has been found in order. -/
structure Image where
  bytes : ByteArray
  pageSize : Nat
  /-- The bytes of a page that are in use. -/
  usable : Nat
  pageCount : Nat

namespace Image

/-- The number of pages that a file claims, or that it has when it does not
claim any. -/
def claimedPages (bytes : ByteArray) (present : Nat) : Nat :=
  if wordAt bytes 28 = 0 ∨ wordAt bytes 24 ≠ wordAt bytes 92 then present else wordAt bytes 28

/-- Finds a paged file in order.  It may have more pages than it claims, but not
fewer. -/
def ofBytes? (bytes : ByteArray) : Option Image :=
  let pageSize := pageSizeOf bytes
  let usable := pageSize - byteAt bytes 20
  let pageCount := claimedPages bytes (pagesIn bytes pageSize)
  if isMarked bytes && decide (readVersion bytes ≤ 2) &&
      bytes.extract 21 24 == bytesOf [64, 32, 32] && isPageSize pageSize &&
      decide (pageCount ≤ pagesIn bytes pageSize) && decide (480 ≤ usable) &&
      decide (byteAt bytes 47 ≤ 4) then
    some ⟨bytes, pageSize, usable, pageCount⟩
  else none

/-- The bytes of a page.  The first page has number one. -/
def page (image : Image) (number : Nat) : ByteArray :=
  resize (image.bytes.extract ((number - 1) * image.pageSize) (number * image.pageSize))
    image.pageSize

def ownNumber (image : Image) : Int := signed 4 (wordAt image.bytes 60)

def encoding (image : Image) : Encoding := .ofNumber (wordAt image.bytes 56)

/-! ### Payloads -/

/-- The least bytes of a long payload that stay on its page. -/
def leastLocal (usable : Nat) : Nat := (usable - 12) * 32 / 255 - 23

def mostInTable (usable : Nat) : Nat := usable - 35

def mostInIndex (usable : Nat) : Nat := (usable - 12) * 64 / 255 - 23

/-- The bytes of a payload that stay on its page, of which there may be so many
at the most. -/
def localSize (usable most size : Nat) : Nat :=
  if size ≤ most then size
  else
    let least := leastLocal usable
    let kept := least + (size - least) % (usable - 4)
    if kept ≤ most then kept else least

end Image

end Pages

end BlockStage

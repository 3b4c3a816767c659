import BlockStage.Pages.Image

/-!
# Logs

A log holds new versions of the pages of a file.  It starts with a head, and each
page comes with a frame that repeats a part of the head and continues a sum over
everything before it, so that leftovers of an older log are told apart.  Only
pages up to the last frame that completes a change count, and that frame tells
how many pages the file has then.
-/

namespace BlockStage

namespace Pages

namespace Log

def headSize : Nat := 32

def frameSize : Nat := 24

def version : Nat := 3007000

abbrev Sum := Nat × Nat

/-- The word at an offset, with the given byte first. -/
def sumWordAt (bigFirst : Bool) (bytes : ByteArray) (offset : Nat) : Nat :=
  if bigFirst then wordAt bytes offset
  else
    byteAt bytes offset + 256 * byteAt bytes (offset + 1) + 65536 * byteAt bytes (offset + 2) +
      16777216 * byteAt bytes (offset + 3)

/-- Continues a sum over bytes, from an offset on, by a number of pairs of
words. -/
def sumFrom (bigFirst : Bool) (bytes : ByteArray) : Nat → Nat → Sum → Sum
  | 0, _, sum => sum
  | pairs + 1, offset, (first, second) =>
      let first := (first + sumWordAt bigFirst bytes offset + second) % patterns 4
      let second := (second + sumWordAt bigFirst bytes (offset + 4) + first) % patterns 4
      sumFrom bigFirst bytes pairs (offset + 8) (first, second)

def sumAt (bytes : ByteArray) (offset : Nat) : Sum :=
  (wordAt bytes offset, wordAt bytes (offset + 4))

/-- What the head of a log says. -/
structure Head where
  bigFirst : Bool
  pageSize : Nat
  /-- What each frame has to repeat. -/
  salt : ByteArray
  sum : Sum

def head? (bytes : ByteArray) : Option Head :=
  let first := wordAt bytes 0
  let bigFirst := first % 2 == 1
  let pageSize := wordAt bytes 8
  let sum := sumFrom bigFirst bytes 3 0 (0, 0)
  if headSize < bytes.size ∧ first / 2 * 2 = 0x377F0682 ∧ isPageSize pageSize ∧
      sum = sumAt bytes 24 then
    some ⟨bigFirst, pageSize, bytes.extract 16 24, sum⟩
  else none

abbrev Page := Nat × ByteArray

/-- Complete changes: the pages, the newest first, and the number of pages that
the file has. -/
structure Changes where
  pages : List Page
  pageCount : Nat

/-- Reads frames from an offset on, with fuel for their number.  The last two
arguments are the complete changes so far and all pages so far. -/
def framesFrom (head : Head) (bytes : ByteArray) :
    Nat → Nat → Sum → Changes → List Page → Changes
  | 0, _, _, complete, _ => complete
  | fuel + 1, offset, sum, complete, pages =>
      let start := offset + frameSize
      let number := wordAt bytes offset
      let sum := sumFrom head.bigFirst bytes 1 offset sum
      let sum := sumFrom head.bigFirst bytes (head.pageSize / 8) start sum
      if start + head.pageSize > bytes.size || number == 0 ||
          !(bytes.extract (offset + 8) (offset + 16) == head.salt) ||
          sum != sumAt bytes (offset + 16) then complete
      else
        let pages := (number, bytes.extract start (start + head.pageSize)) :: pages
        let pageCount := wordAt bytes (offset + 4)
        let complete := if pageCount = 0 then complete else ⟨pages, pageCount⟩
        framesFrom head bytes fuel (start + head.pageSize) sum complete pages

/-- What a log is good for. -/
inductive Reading where
  /-- It has another version. -/
  | strange
  /-- It has no complete changes. -/
  | empty
  /-- It has changes to pages of a size. -/
  | changes (pageSize : Nat) (changes : Changes)

def read (bytes : ByteArray) : Reading :=
  match head? bytes with
  | none => .empty
  | some head =>
      if wordAt bytes 4 ≠ version then .strange
      else
        let count := (bytes.size - headSize) / (frameSize + head.pageSize)
        let changes := framesFrom head bytes count headSize head.sum ⟨[], 0⟩ []
        if changes.pages.isEmpty then .empty else .changes head.pageSize changes

def apply (pageSize : Nat) (changes : Changes) (file : ByteArray) : ByteArray :=
  let pages := changes.pages.filter fun page => decide (page.1 ≤ changes.pageCount)
  let last := pages.foldl (fun last page => max last page.1) (maxGrowth / pageSize)
  pages.reverse.foldl
    (fun file (number, page) => replaceAt file ((number - 1) * pageSize) page)
    (resize file (min changes.pageCount last * pageSize))

/-- The newest version of each page, by the position of its frame, in the order of the
pages.  The pages are given with the newest first. -/
def newest (changes : Changes) : List (Nat × Nat) :=
  let framed := changes.pages.mapIdx fun index (page : Page) =>
    (page.1, changes.pages.length - 1 - index)
  let kept := framed.foldl (fun (kept : List (Nat × Nat)) (number, frame) =>
    if number > changes.pageCount || kept.any fun other => other.1 == number then kept
    else (number, frame) :: kept) []
  kept.mergeSort fun first second => decide (first.1 ≤ second.1)

/-- Carries pages over from a log to a file until one of them is missing in the log.  Gives
the file, and whether all pages were there. -/
def carryPages (pageSize : Nat) (log : ByteArray) : List (Nat × Nat) → ByteArray → ByteArray × Bool
  | [], file => (file, true)
  | (number, frame) :: pages, file =>
      let start := headSize + frame * (frameSize + pageSize) + frameSize
      if start + pageSize > log.size then (file, false)
      else
        let place := (number - 1) * pageSize
        let file := if file.size < place then resize file place else file
        carryPages pageSize log pages
          (replaceAt file place (log.extract start (start + pageSize)))

/-- Carries changes that have been read from a log over to a file, from the log as it has
become.  Gives the file, and whether the log still had them all. -/
def carryOver (pageSize : Nat) (changes : Changes) (log file : ByteArray) : ByteArray × Bool :=
  match carryPages pageSize log (newest changes) file with
  | (file, false) => (file, false)
  | (file, true) => (resize file (apply pageSize changes file).size, true)

end Log

end Pages

end BlockStage

import BlockStage.Pages.Cursor

/-!
# Values in records

A value is taken from a record without looking at more of it than necessary: the
kinds of the values in front of it, and the bytes of the value itself.  A record may
be shorter than its table has columns.  What does not fit together in the part that
is looked at gives a damaged file away.
-/

namespace BlockStage

namespace Pages

def maxHead : Nat := 98307

/-- A number of variable width that has to fit into four bytes. -/
def clippedVarint (bytes : ByteArray) (offset : Nat) : Nat × Nat :=
  let (value, next) := varintAt bytes offset
  (min value (patterns 4 - 1), next)

/-- The head of a record as far as it has been read. -/
structure Head where
  /-- Where the next kind stands. -/
  offset : Nat
  /-- Where the next value starts. -/
  start : Nat
  /-- The last kind, and where its value starts, once enough kinds have been read. -/
  found : Option (Nat × Nat)

def headFrom (bytes : ByteArray) (finish : Nat) : Nat → Nat → Nat → Head
  | 0, offset, start =>
      if offset < finish then
        let (kind, next) := clippedVarint bytes offset
        ⟨next, start + kindSize kind, some (kind, start)⟩
      else ⟨offset, start, none⟩
  | left + 1, offset, start =>
      if offset < finish then
        let (kind, next) := clippedVarint bytes offset
        headFrom bytes finish left next (start + kindSize kind)
      else ⟨offset, start, none⟩

namespace Volume

/-- The value at a position of the record in a cell.  There is none behind the end of
a record that is too short. -/
def valueAt? (volume : Volume) (page : Page) (cell : Cell) (position : Nat) :
    Option (Option Value) :=
  let near := page.data.extract cell.start (cell.start + cell.kept)
  let (finish, offset) := clippedVarint near 0
  let bytes :=
    if finish ≤ near.size then some near
    else if finish > maxHead ∨ finish > cell.size then none
    else volume.payloadPart? page cell 0 finish
  match bytes with
  | none => none
  | some bytes =>
      let head := headFrom bytes finish position offset finish
      let isEnd := decide (finish ≤ head.offset)
      if finish = 0 then some none
      else if finish ≤ offset then none
      else if (isEnd && (decide (finish < head.offset) || head.start != cell.size)) ||
          decide (cell.size < head.start) then none
      else
        match head.found with
        | none => some none
        | some (kind, start) =>
            if head.start ≤ near.size then some (some (Value.ofBytes kind near start))
            else if kindSize kind = 0 then some (some (Value.ofBytes kind ByteArray.empty 0))
            else if volume.count * volume.pageSize < start + kindSize kind then none
            else
              (volume.payloadPart? page cell start (kindSize kind)).map fun part =>
                some (Value.ofBytes kind part 0)

/-- The number of the row to which an entry of an index refers: the last value of the
entry. -/
def rowNumber? (entry : ByteArray) : Option Int :=
  let (finish, _) := clippedVarint entry 0
  if finish < 3 ∨ finish > entry.size then none
  else
    let kind := (clippedVarint entry (finish - 1)).1
    if kind < 1 ∨ kind > 9 ∨ kind = 7 ∨ entry.size < finish + kindSize kind then none
    else
      match Value.ofBytes kind entry (entry.size - kindSize kind) with
      | .whole number => some number
      | _ => none

end Volume

end Pages

end BlockStage

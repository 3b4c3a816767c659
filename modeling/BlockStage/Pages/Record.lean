import BlockStage.Pages.Bytes

/-!
# Records

A row of a paged file is a record: the kinds of its values, followed by the
values themselves.  Whole numbers take as few bytes as they need, nought and one
none at all.
-/

namespace BlockStage

namespace Pages

/-- A value in a record.  A text is its bytes, in whatever encoding. -/
inductive Value where
  | null
  | whole (value : Int)
  | real (bits : Nat)
  | text (bytes : ByteArray)
  | blob (bytes : ByteArray)

/-- The number of bytes of a value, by the number of its kind. -/
def kindSize (kind : Nat) : Nat :=
  if kind ≤ 4 then kind
  else if kind = 5 then 6
  else if kind ≤ 7 then 8
  else if kind < 12 then 0
  else (kind - 12) / 2

namespace Value

def isNoNumber (bits : Nat) : Bool :=
  decide (bits >>> 52 % 2048 = 2047) && bits % (1 <<< 52) != 0

def ofBytes (kind : Nat) (bytes : ByteArray) (offset : Nat) : Value :=
  let size := kindSize kind
  if kind = 0 then .null
  else if kind ≤ 6 then .whole (signed size (numberAt size bytes offset))
  else if kind = 7 then
    let bits := numberAt 8 bytes offset
    if isNoNumber bits then .null else .real bits
  else if kind = 8 then .whole 0
  else if kind = 9 then .whole 1
  else if kind < 12 then .null
  else if kind % 2 = 0 then .blob (bytes.extract offset (offset + size))
  else .text (bytes.extract offset (offset + size))

def wholeKind (value : Int) : Nat :=
  if value = 0 then 8
  else if value = 1 then 9
  else
    match [1, 2, 3, 4, 5].find? fun kind =>
        signed (kindSize kind) (unsigned (kindSize kind) value) == value with
    | some kind => kind
    | none => 6

def kind : Value → Nat
  | .null => 0
  | .whole value => wholeKind value
  | .real _ => 7
  | .text bytes => bytes.size * 2 + 13
  | .blob bytes => bytes.size * 2 + 12

def bytes : Value → ByteArray
  | .null => ByteArray.empty
  | .whole value =>
      numberBytes (kindSize (wholeKind value)) (unsigned (kindSize (wholeKind value)) value)
  | .real bits => numberBytes 8 bits
  | .text bytes => bytes
  | .blob bytes => bytes

end Value

/-- The bytes of a record.  The size of its head counts itself. -/
def recordBytes (values : List Value) : ByteArray :=
  let kinds := joined (values.map fun value => varintBytes value.kind)
  let head := if kinds.size + 1 < 128 then kinds.size + 1 else kinds.size + 2
  varintBytes head ++ kinds ++ joined (values.map Value.bytes)

end Pages

end BlockStage

/-!
# Numbers in bytes

Paged files write numbers with the most significant byte first, in a fixed width
or in a variable one.  A number of variable width has seven bits in each of up to
eight bytes, the highest bit telling that another byte follows; a ninth byte has
eight bits.  Reading behind the end of some bytes finds zeros.
-/

namespace BlockStage

namespace Pages

def byteAt (bytes : ByteArray) (offset : Nat) : Nat :=
  if _h : offset < bytes.size then bytes[offset].toNat else 0

/-- The number in some bytes from an offset on, the most significant byte first. -/
def numberAt (width : Nat) (bytes : ByteArray) (offset : Nat) : Nat :=
  (List.range width).foldl (fun value index => value * 256 + byteAt bytes (offset + index)) 0

def halfAt (bytes : ByteArray) (offset : Nat) : Nat := numberAt 2 bytes offset

def wordAt (bytes : ByteArray) (offset : Nat) : Nat := numberAt 4 bytes offset

def patterns (width : Nat) : Nat := 1 <<< (8 * width)

def signed (width value : Nat) : Int :=
  if 2 * value < patterns width then value else value - patterns width

/-- The number of some bytes that stands for one with a sign. -/
def unsigned (width : Nat) (value : Int) : Nat := (value % patterns width).toNat

def bytesOf (values : List UInt8) : ByteArray := ⟨values.toArray⟩

/-- A number in some bytes, the most significant byte first. -/
def numberBytes (width value : Nat) : ByteArray :=
  bytesOf ((List.range width).map fun index => UInt8.ofNat (value >>> (8 * (width - 1 - index))))

def halfBytes (value : Nat) : ByteArray := numberBytes 2 value

def wordBytes (value : Nat) : ByteArray := numberBytes 4 value

def zeros (size : Nat) : ByteArray := ⟨Array.replicate size 0⟩

def joined (pieces : List ByteArray) : ByteArray := pieces.foldl (· ++ ·) ByteArray.empty

def replaceAt (bytes : ByteArray) (offset : Nat) (part : ByteArray) : ByteArray :=
  bytes.extract 0 offset ++ part ++ bytes.extract (offset + part.size) bytes.size

def resize (bytes : ByteArray) (size : Nat) : ByteArray :=
  if bytes.size < size then bytes ++ zeros (size - bytes.size) else bytes.extract 0 size

def isPowerWithin (least most value : Nat) : Bool :=
  decide (least ≤ value ∧ value ≤ most) && value &&& (value - 1) == 0

/-! ### Numbers of variable width -/

/-- Reads on in a number of variable width, of which at most `left` bytes with
seven bits follow.  Gives the number and the offset behind it. -/
def varintFrom (bytes : ByteArray) : Nat → Nat → Nat → Nat × Nat
  | 0, value, offset => (value * 256 + byteAt bytes offset, offset + 1)
  | left + 1, value, offset =>
      let byte := byteAt bytes offset
      if byte < 128 then (value * 128 + byte, offset + 1)
      else varintFrom bytes left (value * 128 + (byte - 128)) (offset + 1)

def varintAt (bytes : ByteArray) (offset : Nat) : Nat × Nat := varintFrom bytes 8 0 offset

/-- The bytes in front of the last byte of a number of variable width, at most
`left` of them. -/
def leadingBytes : Nat → Nat → List UInt8
  | 0, _ => []
  | left + 1, value =>
      if value = 0 then []
      else leadingBytes left (value / 128) ++ [UInt8.ofNat (128 + value % 128)]

def varintBytes (value : Nat) : ByteArray :=
  if value < patterns 7 then
    bytesOf (leadingBytes 7 (value / 128) ++ [UInt8.ofNat (value % 128)])
  else
    bytesOf
      ((List.range 8).map (fun index => UInt8.ofNat (128 + (value >>> (57 - 7 * index)) % 128)) ++
        [UInt8.ofNat (value % 256)])

end Pages

end BlockStage

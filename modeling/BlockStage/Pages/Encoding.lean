import BlockStage.Pages.Bytes

/-!
# Encodings of texts

A paged file writes all its texts in one encoding: in bytes, or in units of
sixteen bits with the less or the more significant byte first.  A character
outside the first plane takes two units.
-/

namespace BlockStage

namespace Pages

/-- How a file writes its texts. -/
inductive Encoding where
  | utf8
  | utf16Little
  | utf16Big
deriving DecidableEq

namespace Encoding

/-- The encoding with a number, of which the lowest two bits count. -/
def ofNumber (number : Nat) : Encoding :=
  if number % 4 = 2 then .utf16Little else if number % 4 = 3 then .utf16Big else .utf8

def isHalf (unit : Nat) : Bool := decide (0xD800 ≤ unit ∧ unit < 0xE000)

def characterOf (first second : Nat) : Char :=
  Char.ofNat (second % 0x400 + (first % 0x40) * 0x400 + (first / 0x40 % 0x10 + 1) * 0x10000)

/-- The characters of some units.  One half of a character takes the next unit,
whatever that is, and cannot be the last one. -/
def characters? : List Nat → Option (List Char)
  | [] => some []
  | [unit] => if isHalf unit then none else some [Char.ofNat unit]
  | first :: second :: rest =>
      if isHalf first then (characters? rest).map (characterOf first second :: ·)
      else (characters? (second :: rest)).map (Char.ofNat first :: ·)

def unitsOf (character : Char) : List Nat :=
  let code := character.toNat
  if code < 0x10000 then [code]
  else [0xD800 + (code - 0x10000) / 0x400, 0xDC00 + (code - 0x10000) % 0x400]

def decode? (encoding : Encoding) (bytes : ByteArray) : Option String :=
  let offsets := (List.range (bytes.size / 2)).map (2 * ·)
  match encoding with
  | .utf8 => String.fromUTF8? bytes
  | .utf16Little =>
      (characters? (offsets.map fun offset =>
        byteAt bytes offset + 256 * byteAt bytes (offset + 1))).map String.ofList
  | .utf16Big => (characters? (offsets.map (halfAt bytes))).map String.ofList

def encode (encoding : Encoding) (text : String) : ByteArray :=
  match encoding with
  | .utf8 => text.toUTF8
  | .utf16Little =>
      bytesOf ((text.toList.flatMap unitsOf).flatMap fun unit =>
        [UInt8.ofNat unit, UInt8.ofNat (unit / 256)])
  | .utf16Big =>
      bytesOf ((text.toList.flatMap unitsOf).flatMap fun unit =>
        [UInt8.ofNat (unit / 256), UInt8.ofNat unit])

/-! ### Bytes in another encoding -/

/-- The bytes that a text has in an encoding, from those in units of eight bits. -/
def recode (encoding : Encoding) (bytes : ByteArray) : ByteArray :=
  match encoding with
  | .utf8 => bytes
  | _ => encoding.encode ((String.fromUTF8? bytes).getD "")

/-- The bytes in units of eight bits of a text that has some bytes in an encoding. -/
def uncode (encoding : Encoding) (bytes : ByteArray) : ByteArray :=
  match encoding with
  | .utf8 => bytes
  | _ => ((encoding.decode? bytes).getD "").toUTF8

end Encoding

end Pages

end BlockStage

import BlockStage.Pages.Encoding
import BlockStage.Query.Number

/-!
# Comparing values

Nothing comes before numbers, numbers come before texts, and texts before bytes.
Texts are compared in one of several ways.  A text is held in bytes of one encoding
here, whatever the file does, but plain comparison goes by the bytes in the file.
-/

namespace BlockStage

namespace Query

open Pages (Value Encoding)

def compareBytes : List UInt8 → List UInt8 → Ordering
  | [], [] => .eq
  | [], _ :: _ => .lt
  | _ :: _, [] => .gt
  | first :: firsts, second :: seconds =>
      if first < second then .lt
      else if second < first then .gt
      else compareBytes firsts seconds

/-- How texts are compared. -/
inductive Collation where
  /-- By their bytes. -/
  | binary
  /-- Without regard to the case of letters. -/
  | nocase
  /-- Without regard to spaces at the end. -/
  | rtrim
deriving DecidableEq

namespace Collation

def ofName? (name : String) : Option Collation :=
  if name = "binary" then some .binary
  else if name = "nocase" then some .nocase
  else if name = "rtrim" then some .rtrim
  else none

def lower (byte : UInt8) : UInt8 := if 65 ≤ byte ∧ byte ≤ 90 then byte + 32 else byte

/-- How two texts compare by the bytes that an encoding gives them. -/
def comparePlain (encoding : Encoding) (first second : ByteArray) : Ordering :=
  if encoding = .utf8 then compareBytes first.toList second.toList
  else
    compareBytes (encoding.recode first).toList (encoding.recode second).toList

def trimmed (bytes : ByteArray) : ByteArray :=
  Pages.bytesOf (bytes.toList.reverse.dropWhile (· == 32)).reverse

def compare (collation : Collation) (encoding : Encoding) (first second : ByteArray) : Ordering :=
  match collation with
  | .binary => comparePlain encoding first second
  | .nocase => compareBytes (first.toList.map lower) (second.toList.map lower)
  | .rtrim => compareBytes (trimmed first).toList (trimmed second).toList

end Collation

end Query

namespace Pages

namespace Value

open Query
open Query.Number (ofBits)

def compare (encoding : Encoding) (collation : Collation) : Value → Value → Ordering
  | .null, .null => .eq
  | .null, _ => .lt
  | _, .null => .gt
  | .whole first, .whole second => Ord.compare first second
  | .whole first, .real second => Number.compareWhole first (ofBits second)
  | .real first, .whole second => (Number.compareWhole second (ofBits first)).swap
  | .real first, .real second => Number.compareReal (ofBits first) (ofBits second)
  | .whole _, _ => .lt
  | .real _, _ => .lt
  | _, .whole _ => .gt
  | _, .real _ => .gt
  | .text first, .text second => collation.compare encoding first second
  | .text _, .blob _ => .lt
  | .blob _, .text _ => .gt
  | .blob first, .blob second => compareBytes first.toList second.toList

def isNull : Value → Bool
  | .null => true
  | _ => false

/-- A real number as a value.  What is no number is nothing. -/
def ofFloat (value : Float) : Value := if value.isNaN then .null else .real value.toBits.toNat

def ofText (text : String) : Value := .text text.toUTF8

def ofBool (condition : Bool) : Value := .whole (if condition then 1 else 0)

def textBytes : Value → ByteArray
  | .null => ByteArray.empty
  | .whole value => (toString value).toUTF8
  | .real bits => (String.ofList (Number.realText (ofBits bits))).toUTF8
  | .text bytes => bytes
  | .blob bytes => bytes

/-- The bytes of a value as a text, where bytes are a text in some encoding. -/
def textIn (encoding : Encoding) : Value → ByteArray
  | .blob bytes => encoding.uncode bytes
  | value => textBytes value

def read (encoding : Encoding) : Value → Value
  | .blob bytes => .text (encoding.uncode bytes)
  | value => value

def numberOf (bytes : ByteArray) : Value :=
  let characters := Number.characters bytes
  let (float, form) := Number.readReal characters
  let (number, wholeForm) := Number.readWhole characters
  match form with
  | .whole => if wholeForm = .exact then .whole number else ofFloat float
  | .other => if wholeForm ≠ .tooLarge then .whole number else ofFloat float
  | _ => ofFloat float

def toNumber : Value → Value
  | .text bytes => numberOf bytes
  | .blob bytes => numberOf bytes
  | value => value

def toReal : Value → Float
  | .null => 0
  | .whole value => Number.ofWhole value
  | .real bits => ofBits bits
  | .text bytes => (Number.readReal (Number.characters bytes)).1
  | .blob bytes => (Number.readReal (Number.characters bytes)).1

def toWhole : Value → Int
  | .null => 0
  | .whole value => value
  | .real bits => Number.toWhole (ofBits bits)
  | .text bytes => (Number.readWhole (Number.characters bytes)).1
  | .blob bytes => (Number.readWhole (Number.characters bytes)).1

/-- Whether a value counts as true, unless it is nothing. -/
def truth? : Value → Option Bool
  | .null => none
  | .whole value => some (value != 0)
  | value => some (toReal value != 0)

/-! ### Affinity -/

def numeric? (bytes : ByteArray) : Option Value :=
  let characters := Number.characters bytes
  let (float, form) := Number.readReal characters
  let (number, wholeForm) := Number.readWhole characters
  let reduced := match Number.exactWhole? float with
    | some number => Value.whole number
    | none => ofFloat float
  match form with
  | .whole => some (if wholeForm = .exact then .whole number else reduced)
  | .real => some reduced
  | _ => none

/-- A value turned to the kind that an affinity prefers, if nothing is lost. -/
def convert : Affinity → Value → Value
  | .text, .whole value => .text (textBytes (.whole value))
  | .text, .real bits => .text (textBytes (.real bits))
  | .numeric, value => number value
  | .integer, value => number value
  | .real, value =>
      match number value with
      | .whole value => ofFloat (Number.ofWhole value)
      | value => value
  | _, value => value
where
  /-- A value turned to a number if it looks like one, and to a whole one if it
  is. -/
  number : Value → Value
    | .text bytes => (numeric? bytes).getD (.text bytes)
    | .real bits =>
        match Number.exactWhole? (ofBits bits) with
        | some number => .whole number
        | none => .real bits
    | value => value

def prefersNumbers : Affinity → Bool
  | .numeric => true
  | .integer => true
  | .real => true
  | _ => false

/-- The affinity under which two operands are compared, by the affinities that
they have themselves. -/
def sharedAffinity : Option Affinity → Option Affinity → Affinity
  | some first, some second =>
      if prefersNumbers first || prefersNumbers second then .numeric else .blob
  | some first, none => first
  | none, some second => second
  | none, none => .blob

def isText : Value → Bool
  | .text _ => true
  | _ => false

def forComparison (affinity : Affinity) (first second : Value) : Value × Value :=
  if prefersNumbers affinity then
    let reading := fun value : Value =>
      match value with
      | .text bytes => (numeric? bytes).getD value
      | value => value
    (reading first, reading second)
  else if affinity = .text ∧ (isText first ∨ isText second) then
    (convert .text first, convert .text second)
  else (first, second)

def cast (encoding : Encoding) : Affinity → Value → Value
  | _, .null => .null
  | .blob, .blob bytes => .blob bytes
  | .blob, value => .blob (encoding.recode (textBytes value))
  | .text, .blob bytes => .text (encoding.uncode bytes)
  | .text, value => .text (textBytes value)
  | .integer, value => .whole (toWhole value)
  | .real, value => ofFloat (toReal value)
  | .numeric, .text bytes => fromText bytes
  | .numeric, .blob bytes => fromText bytes
  | .numeric, value => value
where
  /-- The number that a text starts with, a whole one if possible. -/
  fromText (bytes : ByteArray) : Value :=
    match numberOf bytes with
    | .real bits =>
        match Number.exactWhole? (ofBits bits) with
        | some number => .whole number
        | none => .real bits
    | value => value

end Value

end Pages

end BlockStage

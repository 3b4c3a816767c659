import BlockStage.Query.Moment

/-!
# Functions

Functions compute a value from others.  Some of them refuse their arguments, which
is an error of the whole command.
-/

namespace BlockStage

namespace Query

open Pages (Value Encoding bytesOf)

/-- What is known of a function. -/
structure Signature where
  least : Nat
  /-- The most arguments, if there is a limit. -/
  most : Option Nat
  /-- Whether the function gathers the values of several rows. -/
  gathers : Bool := false
  /-- Whether the result depends on nothing but the arguments. -/
  isSteady : Bool := true
  /-- Whether the function is about the place of a row in a window. -/
  looksAround : Bool := false

namespace Function

/-- The functions of one value of a row, with the counts of their arguments. -/
def scalars : List (String × Nat × Option Nat) :=
  [("abs", 1, some 1), ("char", 0, none), ("coalesce", 2, none), ("concat", 1, none),
    ("concat_ws", 2, none), ("format", 0, none), ("glob", 2, some 2), ("hex", 1, some 1),
    ("ifnull", 2, some 2), ("iif", 3, some 3), ("instr", 2, some 2), ("length", 1, some 1),
    ("like", 2, some 3), ("likelihood", 2, some 2), ("likely", 1, some 1), ("lower", 1, some 1),
    ("ltrim", 1, some 2), ("max", 2, none), ("min", 2, none), ("nullif", 2, some 2),
    ("octet_length", 1, some 1), ("printf", 0, none), ("quote", 1, some 1),
    ("replace", 3, some 3), ("round", 1, some 2), ("rtrim", 1, some 2), ("sign", 1, some 1),
    ("soundex", 1, some 1), ("substr", 2, some 3), ("substring", 2, some 3), ("trim", 1, some 2),
    ("typeof", 1, some 1), ("unhex", 1, some 2), ("unicode", 1, some 1), ("unlikely", 1, some 1),
    ("upper", 1, some 1), ("zeroblob", 1, some 1)] ++ Moment.functions

def unsteady : List (String × Nat × Option Nat) :=
  [("random", 0, some 0), ("randomblob", 1, some 1), ("changes", 0, some 0),
    ("total_changes", 0, some 0), ("last_insert_rowid", 0, some 0), ("sqlite_version", 0, some 0),
    ("sqlite_source_id", 0, some 0)]

def gatherers : List (String × Nat × Option Nat) :=
  [("avg", 1, some 1), ("count", 0, some 1), ("group_concat", 1, some 2), ("max", 1, some 1),
    ("min", 1, some 1), ("string_agg", 2, some 2), ("sum", 1, some 1), ("total", 1, some 1)]

/-- The functions that are about the place of a row in a window. -/
def lookers : List (String × Nat × Option Nat) :=
  [("row_number", 0, some 0), ("rank", 0, some 0), ("dense_rank", 0, some 0),
    ("percent_rank", 0, some 0), ("cume_dist", 0, some 0), ("ntile", 1, some 1),
    ("lag", 1, some 3), ("lead", 1, some 3), ("first_value", 1, some 1),
    ("last_value", 1, some 1), ("nth_value", 2, some 2)]

def signatures : List (String × Signature) :=
  scalars.map (fun (name, least, most) => (name, { least := least, most := most })) ++
    unsteady.map (fun (name, least, most) => (name, { least, most, isSteady := false })) ++
    gatherers.map (fun (name, least, most) => (name, { least, most, gathers := true })) ++
    lookers.map fun (name, least, most) => (name, { least, most, looksAround := true })

def isKnown (name : String) : Bool := (signatures.lookup name).isSome

/-- The function that is meant by a name and a count of arguments. -/
def find? (name : String) (count : Nat) : Option Signature :=
  (signatures.find? fun (known, signature) =>
    known == name && decide (signature.least ≤ count) &&
      signature.most.all fun most => decide (count ≤ most)).map Prod.snd

/-! ### Texts -/

def text (bytes : List UInt8) : Value := .text (bytesOf bytes)

/-- The sides of a text. -/
inductive Side where
  | left
  | right
  | both
deriving DecidableEq

def trim (side : Side) (value : Value) (removed : List (List UInt8)) : Value :=
  let front := fun pieces : List (List UInt8) =>
    if side = .right then pieces else pieces.dropWhile removed.contains
  let back := fun pieces : List (List UInt8) =>
    if side = .left then pieces else (pieces.reverse.dropWhile removed.contains).reverse
  text (back (front (Pattern.pieces value.textBytes))).flatten

/-- Where a part of a list starts, counted from one, or nought. -/
def indexOf {α : Type} [BEq α] (part : List α) : Nat → List α → Nat
  | position, [] => if part.isEmpty then position else 0
  | position, item :: items =>
      if part.isPrefixOf (item :: items) then position
      else indexOf part (position + 1) items

/-- A list with each occurrence of a part replaced, with fuel for its length. -/
def replaceAll (part new : List UInt8) : Nat → List UInt8 → List UInt8
  | 0, bytes => bytes
  | _, [] => []
  | fuel + 1, byte :: bytes =>
      if part.isPrefixOf (byte :: bytes) then
        new ++ replaceAll part new fuel ((byte :: bytes).drop part.length)
      else byte :: replaceAll part new fuel bytes

/-- The start and the length of a part of something of a size, as they are asked for.
Places are counted from one, or from the end if they are negative; a negative length
stands for what comes before the place. -/
def extent (size start length : Int) : Nat × Nat :=
  let isBackward := decide (length < 0)
  let length : Int := length.natAbs
  let (start, length) :=
    if start < 0 then
      let start := start + size
      if start < 0 then (0, max 0 (length + start)) else (start, length)
    else if 0 < start then (start - 1, length)
    else (0, if 0 < length then length - 1 else length)
  let (start, length) :=
    if isBackward then
      let start := start - length
      if start < 0 then (0, length + start) else (start, length)
    else (start, length)
  (start.toNat, length.toNat)

def maxSize : Nat := 1000000000

def part (value start : Value) (length : Option Value) : Value :=
  if value.isNull || start.isNull || length.any Value.isNull then .null
  else
    let length := (length.map Format.toShort).getD maxSize
    match value with
    | .blob bytes =>
        if bytes.isEmpty then .null
        else
          let (start, length) := extent bytes.size (Format.toShort start) length
          .blob (bytes.extract start (start + length))
    | value =>
        let pieces := Pattern.piecesToZero value.textBytes
        let (start, length) := extent pieces.length (Format.toShort start) length
        text ((pieces.drop start).take length).flatten

def hexDigits (bytes : List UInt8) : List Char :=
  bytes.flatMap fun byte =>
    [byte.toNat / 16, byte.toNat % 16].map fun digit =>
      (Nat.digitChar digit).toUpper

/-- The bytes of a text with capital letters, or without. -/
def withCase (change : UInt8 → UInt8) (value : Value) : Value :=
  if value.isNull then .null
  else text ((value.textBytes.toList.takeWhile (· != 0)).map change)

def upper (byte : UInt8) : UInt8 := if 97 ≤ byte ∧ byte ≤ 122 then byte - 32 else byte

/-- The length of a value: of a text in characters, of anything else in bytes. -/
def length : Value → Value
  | .null => .null
  | .text bytes => .whole (Pattern.piecesToZero bytes).length
  | .blob bytes => .whole bytes.size
  | value => .whole value.textBytes.size

def kindName : Value → String
  | .null => "null"
  | .whole _ => "integer"
  | .real _ => "real"
  | .text _ => "text"
  | .blob _ => "blob"

def quote : Value → Value
  | .null => .ofText "NULL"
  | .text bytes =>
      text (39 :: (bytes.toList.takeWhile (· != 0)).flatMap
        (fun byte => if byte = 39 then [39, 39] else [byte]) ++ [39])
  | .blob bytes =>
      .ofText ("X\x27" ++ String.ofList (hexDigits bytes.toList) ++ "\x27")
  | .real bits => .ofText (String.ofList (Number.exactText (Number.ofBits bits)))
  | value => .text value.textBytes

def soundOf (code : Nat) : Nat :=
  let codes : List (List Char × Nat) :=
    [("bfpv".toList, 1), ("cgjkqsxz".toList, 2), ("dt".toList, 3), ("l".toList, 4),
      ("mn".toList, 5), ("r".toList, 6)]
  ((codes.find? fun (letters, _) => letters.contains (Char.ofNat (Pattern.lowerCode code))).map
    Prod.snd).getD 0

/-- The codes of letters for their sounds, one for each run of the same. -/
def soundsFrom : Nat → List Nat → List Nat
  | _, [] => []
  | last, code :: codes =>
      let isLetter := (Char.ofNat code).isAlpha
      let sound := if isLetter then soundOf code else 0
      if sound = 0 then soundsFrom 0 codes
      else if sound = last then soundsFrom last codes
      else sound :: soundsFrom sound codes

def soundex (value : Value) : Value :=
  let letters := (Pattern.codesToZero value.textBytes).dropWhile fun code =>
    !(Char.ofNat code).isAlpha
  match letters with
  | [] => .ofText "?000"
  | first :: rest =>
      let sounds := (soundsFrom (soundOf first) rest).take 3
      .ofText (String.ofList ((Char.ofNat first).toUpper ::
        (sounds ++ List.replicate (3 - sounds.length) 0).map fun digit => Nat.digitChar digit))

/-! ### Numbers -/

def magnitude : Value → Option Value
  | .null => some .null
  | .whole value => if value = Number.smallest then none else some (.whole value.natAbs)
  | value => some (.ofFloat value.toReal.abs)

def round (value : Value) (places : Int) : Value :=
  let real := value.toReal
  if real.abs > 4503599627370496 then .ofFloat real
  else if places ≤ 0 then
    let half : Float := if real < 0 then -0.5 else 0.5
    .ofFloat (Number.ofWhole (Number.toWhole (real + half)))
  else
    let style : Digits.Style := { form := .fixed, precision := (min 30 places).toNat, isExact := true }
    let (sign, text) := style.write real
    .ofFloat (Number.readReal (sign ++ text)).1

def sign (value : Value) : Value :=
  match value with
  | .null => .null
  | .blob _ => .null
  | value =>
      match Value.convert .numeric value with
      | .whole whole => .whole whole.sign
      | .real bits =>
          let real := Number.ofBits bits
          .whole (if real < 0 then -1 else if real > 0 then 1 else 0)
      | _ => .null

/-- The best of some values, nothing if one is nothing, given how a value has to compare
with the best before it. -/
def extreme (encoding : Encoding) (collation : Collation) (isBetter : Ordering → Bool)
    (values : List Value) : Value :=
  match values with
  | [] => .null
  | first :: rest =>
      if values.any Value.isNull then .null
      else
        rest.foldl (fun best value =>
          if isBetter (Value.compare encoding collation value best) then value else best) first

/-! ### Application -/

/-- The character that takes the meaning of others in a pattern, if there is just
one. -/
def escapeOf? (value : Value) : Option Nat :=
  match Pattern.codesToZero value.textBytes with
  | [code] => some code
  | _ => none

def matches? (signs : Pattern.Signs) (pattern text : Value) : Value :=
  if pattern.isNull || text.isNull then .null
  else .ofBool (Pattern.isMatch signs pattern.textBytes text.textBytes)

/-- Texts joined with another one between them, without those that are empty. -/
def joined (between : ByteArray) (values : List Value) : Value :=
  let texts := (values.map fun value => value.textBytes.toList).filter (!·.isEmpty)
  text (List.intercalate between.toList texts)

def removedBy : List Value → List (List UInt8)
  | [_, removed] => Pattern.pieces removed.textBytes
  | _ => [[32]]

/-- The bytes in pairs of hexadecimal digits, between which some characters are passed
over. -/
def hexPairs? (ignored : List Nat) : List Nat → Option (List UInt8)
  | [] => some []
  | code :: rest =>
      if Word.isHexDigit (Char.ofNat code) then
        match rest with
        | [] => none
        | second :: rest =>
            if Word.isHexDigit (Char.ofNat second) then
              (hexPairs? ignored rest).map
                (Grammar.hexBytes [Char.ofNat code, Char.ofNat second] ++ ·)
            else none
      else if ignored.contains code then hexPairs? ignored rest
      else none

/-- The bytes in some hexadecimal digits, if they are. -/
def unhex (value : Value) (ignored : List Nat) : Value :=
  match hexPairs? ignored (Pattern.codesToZero value.textBytes) with
  | some bytes => .blob (bytesOf bytes)
  | none => .null

def textual : List String :=
  ["concat", "concat_ws", "format", "printf", "glob", "like", "lower", "upper", "ltrim", "rtrim",
    "trim", "replace", "soundex", "unhex", "unicode"]

/-- Applies a function to values, unless it refuses them. -/
def apply (encoding : Encoding) (collation : Collation) (name : String) (values : List Value) :
    Option Value :=
  let values := if textual.contains name then values.map (Value.read encoding) else values
  let first := values.headD .null
  let second := (values.drop 1).headD .null
  let hasNull := values.any Value.isNull
  match name with
  | "abs" => magnitude first
  | "char" => some (text (values.flatMap fun value =>
      let code := value.toWhole
      Pattern.encode (if code < 0 ∨ code > 0x10FFFF then 0xFFFD else code.toNat)))
  | "concat" => some (joined ByteArray.empty values)
  | "concat_ws" => some (if first.isNull then .null else joined first.textBytes (values.drop 1))
  | "format" => some (Format.apply values)
  | "printf" => some (Format.apply values)
  | "glob" => some (matches? Pattern.globSigns first second)
  | "hex" => some (.ofText (String.ofList (hexDigits (match first with
      | .blob bytes => bytes.toList
      | .text bytes => (encoding.recode bytes).toList
      | value => value.textBytes.toList))))
  | "instr" =>
      match first, second with
      | .null, _ => some .null
      | _, .null => some .null
      | .blob bytes, .blob found => some (.whole (indexOf found.toList 1 bytes.toList))
      | value, found =>
          some (.whole (indexOf (Pattern.pieces (found.textIn encoding)) 1
            (Pattern.pieces (value.textIn encoding))))
  | "length" => some (length first)
  | "like" =>
      match values with
      | [pattern, value] => some (matches? (Pattern.likeSigns none) pattern value)
      | [pattern, value, escape] =>
          if escape.isNull then some .null
          else (escapeOf? escape).map fun code =>
            matches? (Pattern.likeSigns (some code)) pattern value
      | _ => none
  | "likelihood" => some first
  | "likely" => some first
  | "unlikely" => some first
  | "lower" => some (withCase Collation.lower first)
  | "upper" => some (withCase upper first)
  | "ltrim" => some (if hasNull then .null else trim .left first (removedBy values))
  | "rtrim" => some (if hasNull then .null else trim .right first (removedBy values))
  | "trim" => some (if hasNull then .null else trim .both first (removedBy values))
  | "max" => some (extreme encoding collation (· == .gt) values)
  | "min" => some (extreme encoding collation (· != .gt) values)
  | "nullif" =>
      some (if Value.compare encoding collation first second = .eq then .null else first)
  | "octet_length" =>
      some (match first with
        | .null => .null
        | .blob bytes => .whole bytes.size
        | value => .whole (encoding.recode value.textBytes).size)
  | "quote" => some (quote first)
  | "replace" =>
      let third := (values.drop 2).headD .null
      let part := second.textBytes.toList
      let bytes := first.textBytes.toList
      if first.isNull || second.isNull then some .null
      else if part.headD 0 = 0 then some (.text first.textBytes)
      else if third.isNull then some .null
      else some (text (replaceAll part third.textBytes.toList bytes.length bytes))
  | "round" => some (if hasNull then .null else round first (Format.toShort second))
  | "sign" => some (sign first)
  | "soundex" => some (soundex first)
  | "substr" => some (part first second (values.drop 2).head?)
  | "substring" => some (part first second (values.drop 2).head?)
  | "typeof" => some (.ofText (kindName first))
  | "unhex" => some (if hasNull then .null else unhex first (Pattern.codesToZero second.textBytes))
  | "unicode" =>
      some (match Pattern.codesToZero first.textBytes with
        | code :: _ => .whole code
        | [] => .null)
  | "zeroblob" =>
      let size := first.toWhole.toNat
      if size > 1000000000 then none else some (.blob (Pages.zeros size))
  | _ => Moment.compute? name values

end Function

end Query

end BlockStage

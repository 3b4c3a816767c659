import BlockStage.Query.Pattern

/-!
# Formats

A format is a text in which directives stand for values.  A directive starts with a
percent sign; then come signs, a width and a precision, and a letter for the kind of
thing that is written.  A directive that is not understood ends the text.
-/

namespace BlockStage

namespace Query

open Pages (Value bytesOf)

namespace Format

/-- How one value is written. -/
structure Directive where
  isLeft : Bool := false
  /-- What stands in front of a number that is not negative. -/
  sign : Option Char := none
  isAlternate : Bool := false
  /-- Whether characters are counted and not bytes, and digits are not held back. -/
  isExact : Bool := false
  isPadded : Bool := false
  isGrouped : Bool := false
  width : Nat := 0
  precision : Option Nat := none

def isDigit (byte : UInt8) : Bool := decide (48 ≤ byte ∧ byte ≤ 57)

/-- The number in some digits, of which only thirty-one bits count. -/
def number (digits : List UInt8) : Nat :=
  digits.foldl (fun value digit => value * 10 + (digit.toNat - 48)) 0 % (Pages.patterns 4 / 2)

def toShort (value : Value) : Int :=
  Pages.signed 4 (Pages.unsigned 4 value.toWhole)

/-- A directive with a sign taken into it, if it is one. -/
def Directive.flagged? (directive : Directive) (byte : UInt8) : Option Directive :=
  if byte = 45 then some { directive with isLeft := true }
  else if byte = 43 then some { directive with sign := some '+' }
  else if byte = 32 then some { directive with sign := some ' ' }
  else if byte = 35 then some { directive with isAlternate := true }
  else if byte = 33 then some { directive with isExact := true }
  else if byte = 48 then some { directive with isPadded := true }
  else if byte = 44 then some { directive with isGrouped := true }
  else none

def precisionFrom (rest : List UInt8) (values : List Value) :
    Option Nat × List UInt8 × List Value :=
  match rest with
  | 42 :: rest =>
      let given := toShort (values.headD .null)
      (if given = -(Pages.patterns 4 / 2 : Nat) then none else some given.natAbs, rest,
        values.drop 1)
  | rest =>
      let (digits, rest) := rest.span isDigit
      (some (number digits), rest, values)

/-- Reads a directive behind its percent sign, with fuel for its length.  Gives its
letter, what follows it, and the values that are left. -/
def directiveFrom : Nat → Directive → List UInt8 → List Value →
    Option (Directive × UInt8 × List UInt8 × List Value)
  | 0, _, _, _ => none
  | _ + 1, _, [], _ => none
  | fuel + 1, directive, byte :: rest, values =>
      let goesOn := fun rest : List UInt8 => rest.head? = some 46 ∨ rest.head? = some 108
      let finish := fun (directive : Directive) (rest : List UInt8) (values : List Value) =>
        match rest with
        | letter :: rest => some (directive, letter, rest, values)
        | [] => none
      match directive.flagged? byte with
      | some directive => directiveFrom fuel directive rest values
      | none =>
          if byte = 108 then
            finish directive (if rest.head? = some 108 then rest.drop 1 else rest) values
          else if isDigit byte then
            let (digits, rest) := (byte :: rest).span isDigit
            let directive := { directive with width := number digits }
            if goesOn rest then directiveFrom fuel directive rest values
            else finish directive rest values
          else if byte = 42 then
            let given := toShort (values.headD .null)
            let directive := { directive with
              isLeft := directive.isLeft || decide (given < 0)
              width := if given = -(Pages.patterns 4 / 2 : Nat) then 0 else given.natAbs }
            if goesOn rest then directiveFrom fuel directive rest (values.drop 1)
            else finish directive rest (values.drop 1)
          else if byte = 46 then
            let (precision, rest, values) := precisionFrom rest values
            let directive := { directive with precision }
            if rest.head? = some 108 then directiveFrom fuel directive rest values
            else finish directive rest values
          else some (directive, byte, rest, values)

def Directive.pad (directive : Directive) (bytes : List UInt8) : List UInt8 :=
  let fill := List.replicate (directive.width - bytes.length) 32
  if directive.isLeft then bytes ++ fill else fill ++ bytes

/-- Bytes in a width that counts characters, if it is to. -/
def Directive.padText (directive : Directive) (bytes : List UInt8) : List UInt8 :=
  let extra := (bytes.filter fun byte => Pattern.isContinuation byte.toNat).length
  let width := if directive.isExact && decide (0 < directive.width) then directive.width + extra
    else directive.width
  { directive with width }.pad bytes

def asciiBytes (characters : List Char) : List UInt8 :=
  characters.map fun character => UInt8.ofNat character.toNat

/-! ### Numbers -/

def grouped (digits : List Char) : List Char :=
  (digits.reverse.zipIdx.flatMap fun (digit, index) =>
    if index ≠ 0 ∧ index % 3 = 0 then [',', digit] else [digit]).reverse

def ordinalEnding (value : Nat) : List Char :=
  let last := value % 10
  if 4 ≤ last ∨ value / 10 % 10 = 1 then ['t', 'h']
  else ([['t', 'h'], ['s', 't'], ['n', 'd'], ['r', 'd']] : List (List Char)).getD last []

/-- Digits behind a sign, with zeros in front of them and commas as a directive asks. -/
def Directive.digits (directive : Directive) (sign digits : List Char) : List UInt8 :=
  let least := max (directive.precision.getD 0)
    (if directive.isPadded then directive.width - sign.length else 0)
  let digits := List.replicate (least - digits.length) '0' ++ digits
  directive.pad (asciiBytes (sign ++ if directive.isGrouped then grouped digits else digits))

def Directive.signedNumber (directive : Directive) (value : Int) (ending : List Char) :
    List UInt8 :=
  let sign := if value < 0 then ['-'] else directive.sign.toList
  directive.digits sign (Nat.toDigits 10 value.natAbs ++ ending)

/-- A whole number without a sign in some base, behind a mark of the base if the
directive asks for it. -/
def Directive.unsignedNumber (directive : Directive) (base : Nat) (isCapital : Bool)
    (mark : List Char) (value : Int) : List UInt8 :=
  let value := Pages.unsigned 8 value
  let digits := (Nat.toDigits base value).map fun digit =>
    if isCapital then digit.toUpper else digit
  let least := max (directive.precision.getD 0) (if directive.isPadded then directive.width else 0)
  let digits := List.replicate (least - digits.length) '0' ++ digits
  let mark := if directive.isAlternate && value != 0 then mark else []
  directive.pad (asciiBytes (mark ++ if directive.isGrouped then grouped digits else digits))

def Directive.realNumber (directive : Directive) (form : Digits.Form) (mark : Char)
    (value : Float) : List UInt8 :=
  let style : Digits.Style :=
    { form, precision := directive.precision.getD 6, sign := directive.sign
      isAlternate := directive.isAlternate, isExact := directive.isExact
      isGrouped := directive.isGrouped, isPadded := directive.isPadded, mark }
  let (sign, text) := style.write value
  let size := sign.length + text.length
  let zeros := if directive.isPadded && !directive.isLeft then directive.width - size else 0
  directive.pad (asciiBytes (sign ++ List.replicate zeros '0' ++ text))

/-! ### Texts -/

/-- The bytes of a value up to a zero, unless it is nothing. -/
def textOf (value : Value) : Option (List UInt8) :=
  if value.isNull then none else some (value.textBytes.toList.takeWhile (· != 0))

/-- The first bytes, or the first characters, of a text, as a precision tells. -/
def Directive.cut (directive : Directive) (bytes : List UInt8) : List UInt8 :=
  match directive.precision with
  | none => bytes
  | some limit =>
      if directive.isExact then ((Pattern.pieces (bytesOf bytes)).take limit).flatten
      else bytes.take limit

def doubled (quote : UInt8) (bytes : List UInt8) : List UInt8 :=
  bytes.flatMap fun byte => if byte = quote then [quote, quote] else [byte]

/-- A text with quotes written twice, and between quotes if it should be. -/
def Directive.quoted (directive : Directive) (quote : UInt8) (isEnclosed : Bool)
    (value : Value) : List UInt8 :=
  match textOf value with
  | none =>
      directive.padText (directive.cut (asciiBytes (if isEnclosed then "NULL" else "(NULL)").toList))
  | some bytes =>
      let body := doubled quote (directive.cut bytes)
      directive.padText (if isEnclosed then quote :: body ++ [quote] else body)

/-- The first character of a value, as often as a precision tells. -/
def Directive.character (directive : Directive) (value : Value) : List UInt8 :=
  let bytes := (textOf value).getD []
  let first : List UInt8 := match bytes with
    | [] => [0]
    | byte :: rest =>
        if 0xC0 ≤ byte then
          byte :: (rest.takeWhile fun byte => Pattern.isContinuation byte.toNat).take 3
        else [byte]
  let count := max 1 (directive.precision.getD 1)
  let width := directive.width - (count - 1)
  if directive.isLeft then
    (List.replicate (count - 1) first).flatten ++
      { directive with width, isExact := true }.padText first
  else
    List.replicate (width - 1) 32 ++ (List.replicate count first).flatten

/-- The bytes of a value that is written by a directive with a letter, and whether the
value is used up. -/
def Directive.write? (directive : Directive) (letter : UInt8) (value : Value) :
    Option (List UInt8 × Bool) :=
  let used := fun bytes : List UInt8 => some (bytes, true)
  let bare := { directive with isGrouped := false }
  match Char.ofNat letter.toNat with
  | 'd' => used (directive.signedNumber value.toWhole [])
  | 'i' => used (directive.signedNumber value.toWhole [])
  | 'r' => used (bare.signedNumber value.toWhole (ordinalEnding value.toWhole.natAbs))
  | 'u' => used (directive.unsignedNumber 10 false [] value.toWhole)
  | 'o' => used (bare.unsignedNumber 8 false ['0'] value.toWhole)
  | 'x' => used (bare.unsignedNumber 16 false ['0', 'x'] value.toWhole)
  | 'X' => used (bare.unsignedNumber 16 true ['0', 'X'] value.toWhole)
  | 'p' => used (bare.unsignedNumber 16 true ['0', 'x'] value.toWhole)
  | 'f' => used (directive.realNumber .fixed 'e' value.toReal)
  | 'e' => used (directive.realNumber .exponential 'e' value.toReal)
  | 'E' => used (directive.realNumber .exponential 'E' value.toReal)
  | 'g' => used (directive.realNumber .general 'e' value.toReal)
  | 'G' => used (directive.realNumber .general 'E' value.toReal)
  | 's' => used (directive.padText (directive.cut ((textOf value).getD [])))
  | 'z' => used (directive.padText (directive.cut ((textOf value).getD [])))
  | 'c' => used (directive.character value)
  | 'q' => used (directive.quoted 39 false value)
  | 'Q' => used (directive.quoted 39 true value)
  | 'w' => used (directive.quoted 34 false value)
  | 'n' => some ([], false)
  | '%' => some (directive.pad [37], false)
  | _ => none

/-- Writes values into a format, with fuel for its length. -/
def formatFrom : Nat → List UInt8 → List Value → List UInt8
  | 0, _, _ => []
  | _, [], _ => []
  | fuel + 1, byte :: rest, values =>
      if byte ≠ 37 then byte :: formatFrom fuel rest values
      else if rest.isEmpty then [37]
      else
        match directiveFrom (rest.length + 1) {} rest values with
        | none => []
        | some (directive, letter, rest, values) =>
            match directive.write? letter (values.headD .null) with
            | none => []
            | some (bytes, isUsed) =>
                bytes ++ formatFrom fuel rest (if isUsed then values.drop 1 else values)

/-- Values written into a format.  Nothing at all is nothing. -/
def apply : List Value → Value
  | [] => .null
  | .null :: _ => .null
  | pattern :: values =>
      let bytes := pattern.textBytes.toList.takeWhile (· != 0)
      let written := formatFrom (bytes.length + 1) bytes values
      if written.isEmpty then .null else .text (bytesOf written)

end Format

end Query

end BlockStage

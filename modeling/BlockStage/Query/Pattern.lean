import BlockStage.Query.Comparison

/-!
# Characters and patterns

A text is bytes, and its characters are read from them without ever failing: what
is not well formed becomes the character for unknown ones.  There are two kinds of
patterns.  In one a percent sign stands for any characters and a line for one of
them, and letters match in either case.  In the other these are a star and a
question mark, brackets list characters, and case counts.
-/

namespace BlockStage

namespace Query

namespace Pattern

/-! ### Characters -/

/-- The bits of the first byte of a long character that count. -/
def firstBits (byte : Nat) : Nat :=
  if byte < 0xE0 then byte - 0xC0
  else if byte < 0xF0 then byte - 0xE0
  else if byte < 0xF8 then byte - 0xF0
  else if byte < 0xFC then byte - 0xF8
  else if byte < 0xFE then byte - 0xFC
  else 0

def isContinuation (byte : Nat) : Bool := decide (0x80 ≤ byte ∧ byte < 0xC0)

def checkedCode (code : Nat) : Nat :=
  if code < 0x80 ∨ code / 0x800 = 0x1B ∨ code / 2 = 0x7FFF ∨ 0x110000 ≤ code then 0xFFFD else code

/-- The codes of the characters in some bytes, with fuel for their number. -/
def codesFrom : Nat → List Nat → List Nat
  | 0, _ => []
  | _, [] => []
  | fuel + 1, byte :: rest =>
      if byte < 0xC0 then byte :: codesFrom fuel rest
      else
        let (tail, rest) := rest.span isContinuation
        let code := tail.foldl (fun code byte => code * 64 + (byte - 0x80)) (firstBits byte)
        checkedCode code :: codesFrom fuel rest

def codes (bytes : ByteArray) : List Nat :=
  codesFrom bytes.size (bytes.toList.map UInt8.toNat)

/-- The codes of the characters in some bytes up to a zero. -/
def codesToZero (bytes : ByteArray) : List Nat := (codes bytes).takeWhile (· != 0)

/-- The bytes of each character in some bytes, with fuel for their number. -/
def piecesFrom : Nat → List UInt8 → List (List UInt8)
  | 0, _ => []
  | _, [] => []
  | fuel + 1, byte :: rest =>
      if byte < 0xC0 then [byte] :: piecesFrom fuel rest
      else
        let (tail, rest) := rest.span fun byte => isContinuation byte.toNat
        (byte :: tail) :: piecesFrom fuel rest

def pieces (bytes : ByteArray) : List (List UInt8) := piecesFrom bytes.size bytes.toList

/-- The bytes of each character in some bytes up to a zero. -/
def piecesToZero (bytes : ByteArray) : List (List UInt8) := (pieces bytes).takeWhile (· != [0])

def encode (code : Nat) : List UInt8 :=
  let tail := fun shift : Nat => UInt8.ofNat (0x80 + (code >>> shift) % 64)
  if code < 0x80 then [UInt8.ofNat code]
  else if code < 0x800 then [UInt8.ofNat (0xC0 + code / 64), tail 0]
  else if code < 0x10000 then [UInt8.ofNat (0xE0 + code / 4096), tail 6, tail 0]
  else [UInt8.ofNat (0xF0 + code / 262144), tail 12, tail 6, tail 0]

def lowerCode (code : Nat) : Nat := if 65 ≤ code ∧ code ≤ 90 then code + 32 else code

/-! ### Matching -/

/-- The signs of a kind of pattern. -/
structure Signs where
  any : Nat
  one : Nat
  /-- The sign that takes the meaning from the next one. -/
  escape : Option Nat
  ignoresCase : Bool
  hasSets : Bool

def areSame (signs : Signs) (first second : Nat) : Bool :=
  first == second || (signs.ignoresCase && lowerCode first == lowerCode second)

/-- Reads a list of characters in a pattern, behind its opening bracket, with the
character that was before.  Gives whether a character is in it and what follows. -/
def inSet (code : Nat) : List Nat → Option Nat → Bool → Option (Bool × List Nat)
  | [], _, _ => none
  | [first], _, found => if first = 93 then some (found, []) else none
  | first :: second :: rest, before, found =>
      if first = 93 then some (found, second :: rest)
      else
        match before with
        | some low =>
            if first = 45 ∧ second ≠ 93 then
              inSet code rest none (found || decide (low ≤ code ∧ code ≤ second))
            else inSet code (second :: rest) (some first) (found || first == code)
        | none => inSet code (second :: rest) (some first) (found || first == code)

/-- Whether a character is in the list at the front of a pattern, and what follows
it.  A closing bracket counts as a character if it comes first. -/
def setMatch (code : Nat) (pattern : List Nat) : Option (Bool × List Nat) :=
  let (isInverted, pattern) :=
    match pattern with
    | 94 :: rest => (true, rest)
    | pattern => (false, pattern)
  let (found, pattern) :=
    match pattern with
    | 93 :: rest => (code == 93, rest)
    | pattern => (false, pattern)
  (inSet code pattern none found).map fun (found, rest) => (found != isInverted, rest)

/-- Whether a text matches a pattern, with fuel for both. -/
def matchFrom (signs : Signs) : Nat → List Nat → List Nat → Bool
  | 0, _, _ => false
  | _, [], [] => true
  | _, [], _ :: _ => false
  | fuel + 1, first :: pattern, text =>
      if first = signs.any ∧ some first ≠ signs.escape then
        matchFrom signs fuel pattern text ||
          match text with
          | [] => false
          | _ :: text => matchFrom signs fuel (first :: pattern) text
      else
        match text with
        | [] => false
        | code :: text =>
            if some first = signs.escape then
              match pattern with
              | [] => false
              | literal :: pattern =>
                  areSame signs literal code && matchFrom signs fuel pattern text
            else if signs.hasSets ∧ first = 91 then
              match setMatch code pattern with
              | some (true, pattern) => matchFrom signs fuel pattern text
              | _ => false
            else (areSame signs first code || first == signs.one) &&
              matchFrom signs fuel pattern text

def isMatch (signs : Signs) (pattern text : ByteArray) : Bool :=
  let pattern := codesToZero pattern
  let text := codesToZero text
  matchFrom signs (pattern.length + text.length + 1) pattern text

def likeSigns (escape : Option Nat) : Signs :=
  { any := 37, one := 95, escape, ignoresCase := true, hasSets := false }

def globSigns : Signs :=
  { any := 42, one := 63, escape := none, ignoresCase := false, hasSets := true }

end Pattern

end Query

end BlockStage

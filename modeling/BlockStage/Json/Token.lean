import BlockStage.Json.Basic

/-!
# Tokens of JSON texts

A text is cut into tokens before it is understood.  Reading stops at the first
problem, so a token that cannot be completed ends the list and remembers what
went wrong.  Two readers use the tokens: a strict one, which needs the contents
of texts and numbers, and a lenient one, which passes over a value without
looking into it.  Where they differ a token keeps both answers.
-/

namespace BlockStage

/-- Why a text is refused. -/
inductive Fault where
  /-- The text ends too early. -/
  | premature
  /-- The text is not JSON. -/
  | malformed
  /-- The text is JSON so far, but not of the wanted shape. -/
  | mismatched
deriving DecidableEq

/-- A token of a JSON text. -/
inductive Token where
  | openArray
  | closeArray
  | openObject
  | closeObject
  | comma
  | colon
  | null
  | bool (value : Bool)
  /-- A number, without a value when it is beyond the finite doubles. -/
  | number (value : Option Numeral)
  /-- A closed text, with its content or the fault that keeps it from having one. -/
  | text (content : Except Fault String)
  /-- A word that is none of the three constants. -/
  | brokenWord (fault : Fault)
  /-- A number that breaks off, with the fault for either reader. -/
  | brokenNumber (strict lenient : Fault)
  /-- A text that is never closed, with the fault for either reader. -/
  | brokenText (strict lenient : Fault)
  /-- A character that starts no token. -/
  | stray

namespace Token

def isBlank (character : Char) : Bool :=
  character == ' ' || character == '\n' || character == '\t' || character == '\r'

def dropWord : List Char → List Char → Except Fault (List Char)
  | [], rest => .ok rest
  | _ :: _, [] => .error .premature
  | expected :: word, character :: rest =>
      if expected = character then dropWord word rest else .error .malformed

/-- The token of a constant whose first letter has been read. -/
def scanWord (token : Token) (word rest : List Char) : Token × List Char :=
  match dropWord word rest with
  | .ok after => (token, after)
  | .error fault => (.brokenWord fault, [])

/-! ### Texts -/

def hexDigit? (character : Char) : Option Nat :=
  if '0' ≤ character ∧ character ≤ '9' then some (character.toNat - '0'.toNat)
  else if 'a' ≤ character ∧ character ≤ 'f' then some (character.toNat - 'a'.toNat + 10)
  else if 'A' ≤ character ∧ character ≤ 'F' then some (character.toNat - 'A'.toNat + 10)
  else none

def isShort (rest : List Char) : Bool :=
  decide ((String.ofList (rest.take 4)).utf8ByteSize < 4)

/-- Reads the four hexadecimal digits of an escape.  With fewer than four bytes
left the text ends too early, whatever the bytes are. -/
def hexEscape (rest : List Char) : Except Fault (Nat × List Char) :=
  if isShort rest then .error .premature
  else
    match rest with
    | first :: second :: third :: fourth :: after =>
        match hexDigit? first, hexDigit? second, hexDigit? third, hexDigit? fourth with
        | some a, some b, some c, some d => .ok (((a * 16 + b) * 16 + c) * 16 + d, after)
        | _, _, _, _ => .error .malformed
    | _ => .error .malformed

def shortEscape? (character : Char) : Option Char :=
  if character = '"' then some '"'
  else if character = '\\' then some '\\'
  else if character = '/' then some '/'
  else if character = 'b' then some (Char.ofNat 0x08)
  else if character = 'f' then some (Char.ofNat 0x0C)
  else if character = 'n' then some '\n'
  else if character = 'r' then some '\r'
  else if character = 't' then some '\t'
  else none

/-- The character of an escape that follows the letter `u`.  Two escapes that
form a surrogate pair stand for one character; a surrogate without its partner
stands for none. -/
def unicodeEscape (rest : List Char) : Except Fault (Char × List Char) :=
  match hexEscape rest with
  | .error fault => .error fault
  | .ok (unit, after) =>
      if 0xDC00 ≤ unit ∧ unit ≤ 0xDFFF then .error .malformed
      else if unit < 0xD800 ∨ 0xDBFF < unit then .ok (Char.ofNat unit, after)
      else
        match after with
        | [] => .error .premature
        | '\\' :: [] => .error .premature
        | '\\' :: 'u' :: low =>
            match hexEscape low with
            | .error fault => .error fault
            | .ok (partner, afterPair) =>
                if 0xDC00 ≤ partner ∧ partner ≤ 0xDFFF then
                  .ok (Char.ofNat (0x10000 + (unit - 0xD800) * 0x400 + (partner - 0xDC00)),
                    afterPair)
                else .error .malformed
        | _ => .error .malformed

theorem hexEscape_length {rest after : List Char} {unit : Nat}
    (read : hexEscape rest = .ok (unit, after)) : after.length < rest.length := by
  unfold hexEscape at read
  split at read
  · cases read
  · split at read
    · split at read
      · cases read
        simp
        omega
      · cases read
    · cases read

theorem unicodeEscape_length {rest after : List Char} {character : Char}
    (read : unicodeEscape rest = .ok (character, after)) : after.length < rest.length := by
  unfold unicodeEscape at read
  split at read
  · cases read
  · rename_i unit middle first
    have shorter := hexEscape_length first
    split at read
    · cases read
    · split at read
      · simp only [Except.ok.injEq, Prod.mk.injEq] at read
        obtain ⟨_, rfl⟩ := read
        exact shorter
      · split at read
        · cases read
        · cases read
        · split at read
          · cases read
          · rename_i second
            have shorterStill := hexEscape_length second
            split at read
            · simp only [Except.ok.injEq, Prod.mk.injEq] at read
              obtain ⟨_, rfl⟩ := read
              simp only [List.length_cons] at shorter
              omega
            · cases read
        · cases read

/-- Reads a text up to its closing quote, collecting its characters in reverse. -/
def readText (collected : List Char) : List Char → Except Fault (List Char × List Char)
  | [] => .error .premature
  | character :: rest =>
      if character = '"' then .ok (collected.reverse, rest)
      else if character = '\\' then
        match rest with
        | [] => .error .premature
        | letter :: after =>
            if letter = 'u' then
              match escaped : unicodeEscape after with
              | .ok (decoded, afterEscape) =>
                  have : afterEscape.length < after.length := unicodeEscape_length escaped
                  readText (decoded :: collected) afterEscape
              | .error fault => .error fault
            else
              match shortEscape? letter with
              | some decoded => readText (decoded :: collected) after
              | none => .error .malformed
      else if character.toNat < 0x20 then .error .malformed
      else readText (character :: collected) rest
termination_by text => text.length
decreasing_by all_goals simp only [List.length_cons]; omega

/-- Passes over a text up to its closing quote, without asking whether its
escapes stand for characters. -/
def skipText : List Char → Except Fault (List Char)
  | [] => .error .premature
  | character :: rest =>
      if character = '"' then .ok rest
      else if character = '\\' then
        match rest with
        | [] => .error .premature
        | letter :: after =>
            if letter = 'u' then
              match escaped : hexEscape after with
              | .ok (unit, afterEscape) =>
                  have : afterEscape.length < after.length := hexEscape_length escaped
                  skipText afterEscape
              | .error fault => .error fault
            else if (shortEscape? letter).isSome then skipText after
            else .error .malformed
      else if character.toNat < 0x20 then .error .malformed
      else skipText rest
termination_by text => text.length
decreasing_by all_goals simp only [List.length_cons]; omega

def scanText (rest : List Char) : Token × List Char :=
  match readText [] rest with
  | .ok (content, after) => (.text (.ok (String.ofList content)), after)
  | .error strict =>
      match skipText rest with
      | .ok after => (.text (.error strict), after)
      | .error lenient => (.brokenText strict lenient, [])

/-! ### Numbers -/

def digitsValue (digits : List Char) : Nat :=
  digits.foldl (fun value digit => value * 10 + (digit.toNat - '0'.toNat)) 0

def breakNumber (rest : List Char) : Token × List Char :=
  (.brokenNumber (if rest.isEmpty then .premature else .malformed) .malformed, [])

def wholeNumeral (negative : Bool) (whole : List Char) : Option Numeral :=
  let value := digitsValue whole
  if negative = false ∧ value < UInt64.size then some (.count (UInt64.ofNat value))
  else ((⟨negative, value, 0⟩ : Decimal).toFloat?).map .real

def countedDigits : Nat := 768

/-- The digits of a number from the first that is not zero on, without the zeros
at the end of its fraction. -/
def significantDigits (whole fraction : List Char) : List Char :=
  (whole ++ (fraction.reverse.dropWhile (· == '0')).reverse).dropWhile (· == '0')

/-- The decimal of a number.  When more digits are written than count one by
one, a single digit one stands for all others, so that a number of which the
first digits lie midway between two doubles is taken for a larger one. -/
def decimalOf (negative : Bool) (whole fraction : List Char) (exponent : Int) : Decimal :=
  let digits := significantDigits whole fraction
  if digits.length ≤ countedDigits then
    ⟨negative, digitsValue (whole ++ fraction), exponent - (fraction.length : Int)⟩
  else
    ⟨negative, digitsValue (digits.take countedDigits) * 10 + 1,
      exponent + (leadingPlaces whole fraction : Int) - (countedDigits + 1 : Nat)⟩
where
  /-- The power of ten just above the first digit that is not zero. -/
  leadingPlaces (whole fraction : List Char) : Int :=
    (whole.length : Int) - (((whole ++ fraction).takeWhile (· == '0')).length : Int)

def realNumeral (negative : Bool) (whole fraction : List Char) (exponent : Int) :
    Option Numeral :=
  (decimalOf negative whole fraction exponent).toFloat?.map .real

def spanDigits (rest : List Char) : List Char × List Char :=
  (rest.takeWhile Char.isDigit, rest.dropWhile Char.isDigit)

/-- The sign in front of an exponent, and what follows it. -/
def exponentSign : List Char → Bool × List Char
  | '+' :: rest => (false, rest)
  | '-' :: rest => (true, rest)
  | rest => (false, rest)

/-- The token of a number whose digits before the exponent have been read. -/
def scanExponent (negative : Bool) (whole : List Char) (fraction : Option (List Char))
    (rest : List Char) : Token × List Char :=
  match rest with
  | character :: after =>
      if character = 'e' ∨ character = 'E' then
        let (down, unsigned) := exponentSign after
        let (digits, last) := spanDigits unsigned
        if digits.isEmpty then breakNumber last
        else
          let size : Int := digitsValue digits
          (.number (realNumeral negative whole (fraction.getD []) (if down then -size else size)),
            last)
      else (finished, rest)
  | [] => (finished, rest)
where
  /-- The token of a number without an exponent. -/
  finished : Token :=
    match fraction with
    | none => .number (wholeNumeral negative whole)
    | some digits => .number (realNumeral negative whole digits 0)

def scanFraction (negative : Bool) (whole rest : List Char) : Token × List Char :=
  match rest with
  | '.' :: after =>
      let (digits, last) := spanDigits after
      if digits.isEmpty then breakNumber last
      else scanExponent negative whole (some digits) last
  | _ => scanExponent negative whole none rest

/-- The token of a number after its sign.  A leading zero stands alone. -/
def scanNumber (negative : Bool) (rest : List Char) : Token × List Char :=
  let (whole, after) := spanDigits rest
  match whole with
  | [] => breakNumber after
  | '0' :: _ :: _ => (.brokenNumber .malformed .malformed, [])
  | _ => scanFraction negative whole after

/-! ### Cutting a text -/

def punctuation? (character : Char) : Option Token :=
  if character = '[' then some .openArray
  else if character = ']' then some .closeArray
  else if character = '\x7b' then some .openObject
  else if character = '\x7d' then some .closeObject
  else if character = ',' then some .comma
  else if character = ':' then some .colon
  else none

def scanLetter (character : Char) (rest : List Char) : Token × List Char :=
  if character = 'n' then scanWord .null ['u', 'l', 'l'] rest
  else if character = 't' then scanWord (.bool true) ['r', 'u', 'e'] rest
  else if character = 'f' then scanWord (.bool false) ['a', 'l', 's', 'e'] rest
  else (.stray, [])

/-- The token that starts with a character, and the text behind it. -/
def scan (character : Char) (rest : List Char) : Token × List Char :=
  match punctuation? character with
  | some token => (token, rest)
  | none =>
      if character = '"' then scanText rest
      else if character = '-' then scanNumber true rest
      else if character.isDigit then scanNumber false (character :: rest)
      else scanLetter character rest

theorem length_dropWhile_le (test : Char → Bool) (text : List Char) :
    (text.dropWhile test).length ≤ text.length :=
  (List.dropWhile_suffix test).length_le

theorem dropWord_length {word rest after : List Char}
    (read : dropWord word rest = .ok after) : after.length ≤ rest.length := by
  induction word generalizing rest with
  | nil =>
      simp only [dropWord, Except.ok.injEq] at read
      simp [read]
  | cons expected word ih =>
      cases rest with
      | nil => simp [dropWord] at read
      | cons character rest =>
          simp only [dropWord] at read
          split at read
          · have := ih read
            simp only [List.length_cons]
            omega
          · cases read

theorem scanWord_length (token : Token) (word rest : List Char) :
    (scanWord token word rest).2.length ≤ rest.length := by
  unfold scanWord
  split
  · rename_i read
    exact dropWord_length read
  · simp

theorem readText_length {collected text content after : List Char}
    (read : readText collected text = .ok (content, after)) : after.length ≤ text.length := by
  fun_induction readText collected text generalizing content after with
  | case1 => cases read
  | case2 collected rest =>
      simp only [Except.ok.injEq, Prod.mk.injEq] at read
      simp [read.2]
  | case3 => cases read
  | case4 collected _ after' decoded afterEscape escaped shorter ih =>
      have := ih read
      simp only [List.length_cons]
      omega
  | case5 => cases read
  | case6 _ _ _ _ _ _ _ ih =>
      have := ih read
      simp only [List.length_cons]
      omega
  | case7 => cases read
  | case8 => cases read
  | case9 _ _ _ _ _ _ ih =>
      have := ih read
      simp only [List.length_cons]
      omega

theorem skipText_length {text after : List Char}
    (read : skipText text = .ok after) : after.length ≤ text.length := by
  fun_induction skipText text with
  | case1 => cases read
  | case2 rest =>
      simp only [Except.ok.injEq] at read
      simp [read]
  | case3 => cases read
  | case4 _ _ _ _ _ _ ih =>
      have := ih read
      simp only [List.length_cons]
      omega
  | case5 => cases read
  | case6 _ _ _ _ _ ih =>
      have := ih read
      simp only [List.length_cons]
      omega
  | case7 => cases read
  | case8 => cases read
  | case9 _ _ _ _ _ ih =>
      have := ih read
      simp only [List.length_cons]
      omega

theorem scanText_length (rest : List Char) : (scanText rest).2.length ≤ rest.length := by
  unfold scanText
  split
  · rename_i read
    exact readText_length read
  · split
    · rename_i read
      exact skipText_length read
    · simp

theorem exponentSign_length (rest : List Char) :
    (exponentSign rest).2.length ≤ rest.length := by
  unfold exponentSign
  split <;> simp

theorem breakNumber_length (text rest : List Char) :
    (breakNumber text).2.length ≤ rest.length := by
  simp [breakNumber]

theorem scanExponent_length (negative : Bool) (whole : List Char)
    (fraction : Option (List Char)) (rest : List Char) :
    (scanExponent negative whole fraction rest).2.length ≤ rest.length := by
  unfold scanExponent
  split
  · rename_i character after
    split
    · dsimp only
      split
      · exact breakNumber_length _ _
      · have digits := length_dropWhile_le Char.isDigit (exponentSign after).2
        have sign := exponentSign_length after
        simp only [spanDigits, List.length_cons]
        omega
    · simp
  · simp

theorem scanFraction_length (negative : Bool) (whole rest : List Char) :
    (scanFraction negative whole rest).2.length ≤ rest.length := by
  unfold scanFraction
  split
  · rename_i after
    dsimp only
    split
    · exact breakNumber_length _ _
    · have later := scanExponent_length negative whole (some (spanDigits after).1)
        (spanDigits after).2
      have digits := length_dropWhile_le Char.isDigit after
      simp only [spanDigits, List.length_cons] at later ⊢
      omega
  · exact scanExponent_length _ _ _ _

theorem scanNumber_length (negative : Bool) (rest : List Char) :
    (scanNumber negative rest).2.length ≤ (rest.dropWhile Char.isDigit).length := by
  unfold scanNumber
  dsimp only
  split
  · exact breakNumber_length _ _
  · exact Nat.zero_le _
  · exact scanFraction_length _ _ _

theorem scanLetter_length (character : Char) (rest : List Char) :
    (scanLetter character rest).2.length ≤ rest.length := by
  unfold scanLetter
  split
  · exact scanWord_length _ _ _
  split
  · exact scanWord_length _ _ _
  split
  · exact scanWord_length _ _ _
  · exact Nat.zero_le _

/-- A token never gives back more text than was behind its first character. -/
theorem scan_length (character : Char) (rest : List Char) :
    (scan character rest).2.length ≤ rest.length := by
  unfold scan
  split
  · exact Nat.le_refl _
  split
  · exact scanText_length rest
  split
  · exact Nat.le_trans (scanNumber_length true rest) (length_dropWhile_le _ _)
  split
  · rename_i digit
    have numbers := scanNumber_length false (character :: rest)
    rw [List.dropWhile_cons_of_pos digit] at numbers
    exact Nat.le_trans numbers (length_dropWhile_le _ _)
  · exact scanLetter_length character rest

/-- Cuts a text into tokens, collecting them in reverse. -/
def collect (collected : List Token) : List Char → List Token
  | [] => collected.reverse
  | character :: rest =>
      if isBlank character then collect collected rest
      else
        have := scan_length character rest
        collect ((scan character rest).1 :: collected) (scan character rest).2
termination_by text => text.length
decreasing_by all_goals simp only [List.length_cons]; omega

def tokenize (text : List Char) : List Token := collect [] text

end Token

end BlockStage

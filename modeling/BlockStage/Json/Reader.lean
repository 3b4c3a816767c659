import BlockStage.Json.Token

/-!
# Reading typed documents

A reader takes tokens from the front of a list and builds a value of the shape
it wants, in one pass.  The first problem it meets decides how the text is
refused.  A value of the wrong shape is a mismatch as soon as its first token
is complete; containers are refused at their opening bracket.  At most 127
containers may be open at once, and every reader of nested values is told how
many it may still open.
-/

namespace BlockStage

/-- Takes tokens from the front and gives a value, or the first fault. -/
abbrev Reader := StateT (List Token) (Except Fault)

namespace Reader

variable {α σ : Type}

def maxRoom : Nat := 127

def fail (fault : Fault) : Reader α := fun _ => .error fault

/-- The fault of finding a token where a value of another shape is wanted.
Texts and numbers that break are refused for that; a token that starts no value
is no JSON. -/
def unwanted : Token → Fault
  | .null => .mismatched
  | .bool _ => .mismatched
  | .number (some _) => .mismatched
  | .number none => .malformed
  | .text (.ok _) => .mismatched
  | .text (.error fault) => fault
  | .openArray => .mismatched
  | .openObject => .mismatched
  | .brokenWord fault => fault
  | .brokenNumber strict _ => strict
  | .brokenText strict _ => strict
  | .closeArray => .malformed
  | .closeObject => .malformed
  | .comma => .malformed
  | .colon => .malformed
  | .stray => .malformed

/-! ### Scalars -/

def text : Reader String
  | [] => .error .premature
  | .text (.ok content) :: rest => .ok (content, rest)
  | token :: _ => .error (unwanted token)

/-- Reads a count, which is written without sign, fraction and exponent. -/
def count : Reader UInt64
  | [] => .error .premature
  | .number (some (.count value)) :: rest => .ok (value, rest)
  | token :: _ => .error (unwanted token)

def real : Reader Float
  | [] => .error .premature
  | .number (some numeral) :: rest => .ok (numeral.toFloat, rest)
  | token :: _ => .error (unwanted token)

def optionalReal : Reader (Option Float)
  | .null :: rest => .ok (none, rest)
  | tokens => (some <$> real) tokens

/-! ### Punctuation -/

def colon : Reader Unit
  | [] => .error .premature
  | .colon :: rest => .ok ((), rest)
  | _ :: _ => .error .malformed

/-- Whether an array goes on with another item.  The comma in front of the item
is read; a closing bracket is left. -/
def hasItem (first : Bool) : Reader Bool
  | [] => .error .premature
  | .closeArray :: rest => .ok (false, .closeArray :: rest)
  | .comma :: rest =>
      if first then .ok (true, .comma :: rest)
      else
        match rest with
        | [] => .error .premature
        | .closeArray :: _ => .error .malformed
        | token :: after => .ok (true, token :: after)
  | token :: rest => if first then .ok (true, token :: rest) else .error .malformed

def closeArray : Reader Unit
  | [] => .error .premature
  | .closeArray :: rest => .ok ((), rest)
  | _ :: _ => .error .malformed

def key : Reader String
  | [] => .error .premature
  | .text (.ok content) :: rest => .ok (content, rest)
  | .text (.error fault) :: _ => .error fault
  | .brokenText strict _ :: _ => .error strict
  | _ :: _ => .error .malformed

/-- The key of the next member of an object, if there is one.  The comma in
front of the key is read; a closing brace is left. -/
def nextKey (first : Bool) : Reader (Option String)
  | [] => .error .premature
  | .closeObject :: rest => .ok (none, .closeObject :: rest)
  | .comma :: rest => if first then .error .malformed else (some <$> key) rest
  | token :: rest => if first then (some <$> key) (token :: rest) else .error .malformed

def closeObject : Reader Unit
  | [] => .error .premature
  | .closeObject :: rest => .ok ((), rest)
  | _ :: _ => .error .malformed

/-! ### Repetition -/

/-- Repeats a step for as long as it asks to go on, at most once for each of the
given tokens. -/
def repeatFor (step : σ → Reader (σ ⊕ α)) : List Token → σ → Reader α
  | [], _ => fail .malformed
  | _ :: turns, state => do
      match ← step state with
      | .inl next => repeatFor step turns next
      | .inr result => return result

/-- Repeats a step for as long as it asks to go on.  A step that goes on takes
at least one token, so there are never more steps than tokens and one. -/
def loop (step : σ → Reader (σ ⊕ α)) (state : σ) : Reader α := fun tokens =>
  repeatFor step (.stray :: tokens) state tokens

/-- Reads the items of an array up to its closing bracket.  The state of the
loop is the list of items read so far, latest first. -/
def items (item : Reader α) : Reader (List α) :=
  loop (fun collected : List α => do
    if ← hasItem collected.isEmpty then
      let next ← item
      return .inl (next :: collected)
    else
      closeArray
      return .inr collected.reverse) []

def members (value : String → Reader α) : Reader (List (String × α)) :=
  loop (fun collected : List (String × α) => do
    match ← nextKey collected.isEmpty with
    | some name =>
        colon
        let next ← value name
        return .inl ((name, next) :: collected)
    | none =>
        closeObject
        return .inr collected.reverse) []

def array (item : Reader α) : Reader (List α)
  | [] => .error .premature
  | .openArray :: rest => items item rest
  | token :: _ => .error (unwanted token)

/-- Reads an object whose keys are free, as a list of its members. -/
def dictionary (value : Reader α) : Reader (List (String × α))
  | [] => .error .premature
  | .openObject :: rest => members (fun _ => value) rest
  | token :: _ => .error (unwanted token)

/-! ### Values of any shape -/

/-- Reads a scalar of any shape where no more container may be opened. -/
def scalar : Reader Json
  | .null :: rest => .ok (.null, rest)
  | .bool value :: rest => .ok (.bool value, rest)
  | .number (some numeral) :: rest => .ok (.number numeral, rest)
  | .text (.ok content) :: rest => .ok (.text content, rest)
  | .openArray :: _ => .error .malformed
  | .openObject :: _ => .error .malformed
  | token :: _ => .error (unwanted token)
  | [] => .error .premature

/-- Reads a document, opening at most `room` containers inside each other. -/
def value : Nat → Reader Json
  | 0 => scalar
  | room + 1 => fun tokens =>
      match tokens with
      | .openArray :: rest => (Json.array <$> items (value room)) rest
      | .openObject :: rest => (Json.object <$> members (fun _ => value room)) rest
      | _ => scalar tokens

/-! ### Values passed over -/

/-- The kinds of container that are open while a value is passed over. -/
inductive Bracket where
  | array
  | object

/-- Where the passing over of a value stands. -/
inductive Passing where
  /-- A value follows. -/
  | atValue
  /-- A container was just opened. -/
  | opened
  /-- A value inside a container was just passed. -/
  | passed

/-- What remains after a value inside `brackets` was passed. -/
def afterValue (brackets : List Bracket) : (List Bracket × Passing) ⊕ Unit :=
  if brackets.isEmpty then .inr () else .inl (brackets, .passed)

def skipStart (brackets : List Bracket) : Reader ((List Bracket × Passing) ⊕ Unit)
  | [] => .error .premature
  | .null :: rest => .ok (afterValue brackets, rest)
  | .bool _ :: rest => .ok (afterValue brackets, rest)
  | .number _ :: rest => .ok (afterValue brackets, rest)
  | .text _ :: rest => .ok (afterValue brackets, rest)
  | .openArray :: rest => .ok (.inl (.array :: brackets, .opened), rest)
  | .openObject :: rest => .ok (.inl (.object :: brackets, .opened), rest)
  | .brokenWord fault :: _ => .error fault
  | .brokenNumber _ lenient :: _ => .error lenient
  | .brokenText _ lenient :: _ => .error lenient
  | _ :: _ => .error .malformed

def skipKey : Reader Unit
  | [] => .error .premature
  | .text _ :: rest => colon rest
  | .brokenText _ lenient :: _ => .error lenient
  | _ :: _ => .error .malformed

/-- Passes over what stands in front of a value in a container. -/
def skipToValue (brackets : List Bracket) : Reader ((List Bracket × Passing) ⊕ Unit) :=
  match brackets with
  | .object :: _ => do
      skipKey
      return .inl (brackets, .atValue)
  | _ => skipStart brackets

def skipStep : List Bracket × Passing → Reader ((List Bracket × Passing) ⊕ Unit)
  | (brackets, .atValue) => skipStart brackets
  | (brackets, position) => fun tokens =>
      match tokens, brackets, position with
      | [], _, _ => .error .premature
      | .closeArray :: rest, .array :: outer, _ => .ok (afterValue outer, rest)
      | .closeObject :: rest, .object :: outer, _ => .ok (afterValue outer, rest)
      | .comma :: rest, _, .passed => skipToValue brackets rest
      | _, _, .passed => .error .malformed
      | _, _, _ => skipToValue brackets tokens

/-- Passes over a value of any shape and depth.  Its numbers may be too large
and its texts need not stand for characters. -/
def skip : Reader Unit := loop skipStep ([], .atValue)

/-! ### Records -/

/-- A named part of a record that is being read. -/
structure Field (σ : Type) where
  name : String
  isSet : σ → Bool
  read : σ → Reader σ

/-- Reads the members of a record in any order.  A part that comes twice is a
mismatch; members that are no part of the record are passed over. -/
def recordMembers (fields : List (Field σ)) (blank : σ) : Reader σ :=
  loop (fun state : Bool × σ => do
    match ← nextKey state.1 with
    | some name =>
        match fields.find? fun field => field.name == name with
        | some field =>
            if field.isSet state.2 then fail .mismatched
            else
              colon
              let next ← field.read state.2
              return .inl (false, next)
        | none =>
            colon
            skip
            return .inl (false, state.2)
    | none =>
        return .inr state.2) (true, blank)

/-- Reads the parts of a record in their order, as far as an array goes. -/
def recordItems : List (Field σ) → Bool → σ → Reader σ
  | [], _, record => return record
  | field :: rest, first, record => do
      if ← hasItem first then
        let next ← field.read record
        recordItems rest false next
      else
        return record

/-- Reads a record, written as an object or as an array of its parts.  `finish`
tells whether all parts are there. -/
def record {ρ : Type} (fields : List (Field σ)) (blank : σ) (finish : σ → Option ρ) : Reader ρ
  | [] => .error .premature
  | .openObject :: rest =>
      (do
        let state ← recordMembers fields blank
        match finish state with
        | some result =>
            closeObject
            return result
        | none => fail .mismatched : Reader ρ) rest
  | .openArray :: rest =>
      (do
        let state ← recordItems fields true blank
        match finish state with
        | some result =>
            closeArray
            return result
        | none => fail .mismatched : Reader ρ) rest
  | token :: _ => .error (unwanted token)

/-! ### Whole texts -/

/-- Reads a whole text, behind which only blanks may follow. -/
def run (reader : Reader α) (source : String) : Except Fault α :=
  match reader (Token.tokenize source.toList) with
  | .error fault => .error fault
  | .ok (result, []) => .ok result
  | .ok (_, _ :: _) => .error .malformed

end Reader

def Json.parse (source : String) : Except Fault Json :=
  Reader.run (Reader.value Reader.maxRoom) source

end BlockStage

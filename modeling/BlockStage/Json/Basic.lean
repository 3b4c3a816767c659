import BlockStage.Number.Style

/-!
# JSON documents

Programs and snapshots are stored as JSON documents.  A document keeps its
members in the order in which they are written.  It can be written in two
layouts: without any blank, or with one member per line and two blanks of
indentation per level.
-/

namespace BlockStage

/-- A number of a document: a count that fits a 64-bit word, or a double. -/
inductive Numeral where
  | count (value : UInt64)
  | real (value : Float)

def Numeral.toFloat : Numeral → Float
  | .count value => value.toFloat
  | .real value => value

/-- A JSON document. -/
inductive Json where
  | null
  | bool (value : Bool)
  | number (value : Numeral)
  | text (content : String)
  | array (items : List Json)
  | object (members : List (String × Json))

namespace Json

/-- The document of a double; numbers off the number line have none and are
written as `null`. -/
def ofFloat (value : Float) : Json :=
  if value.isFinite then .number (.real value) else .null

/-- A character of a quoted text.  Quotes, backslashes and control characters
are escaped, everything else stands for itself. -/
def escape (character : Char) : List Char :=
  if character = '"' then ['\\', '"']
  else if character = '\\' then ['\\', '\\']
  else if 0x20 ≤ character.toNat then [character]
  else if character.toNat = 0x08 then ['\\', 'b']
  else if character.toNat = 0x09 then ['\\', 't']
  else if character.toNat = 0x0A then ['\\', 'n']
  else if character.toNat = 0x0C then ['\\', 'f']
  else if character.toNat = 0x0D then ['\\', 'r']
  else
    ['\\', 'u', '0', '0', Nat.digitChar (character.toNat / 16),
      Nat.digitChar (character.toNat % 16)]

def quote (content : String) : List Char :=
  '"' :: (content.toList.flatMap escape ++ ['"'])

def writeNumeral : Numeral → List Char
  | .count value => Nat.toDigits 10 value.toNat
  | .real value => NumberStyle.stored.write value

mutual

def compact : Json → List Char
  | .null => ['n', 'u', 'l', 'l']
  | .bool true => ['t', 'r', 'u', 'e']
  | .bool false => ['f', 'a', 'l', 's', 'e']
  | .number value => writeNumeral value
  | .text content => quote content
  | .array items => '[' :: compactItems items
  | .object members => '\x7b' :: compactMembers members

/-- The items of an array, up to and including its closing bracket. -/
def compactItems : List Json → List Char
  | [] => [']']
  | [item] => compact item ++ [']']
  | item :: next :: rest => compact item ++ ',' :: compactItems (next :: rest)

/-- The members of an object, up to and including its closing brace. -/
def compactMembers : List (String × Json) → List Char
  | [] => ['\x7d']
  | [(key, value)] => quote key ++ ':' :: (compact value ++ ['\x7d'])
  | (key, value) :: next :: rest =>
      quote key ++ ':' :: (compact value ++ ',' :: compactMembers (next :: rest))

end

def newline (depth : Nat) : List Char :=
  '\n' :: List.replicate (2 * depth) ' '

mutual

/-- A document with one item or member per line, nested at a given depth. -/
def indented (depth : Nat) : Json → List Char
  | .array [] => ['[', ']']
  | .array (item :: rest) => '[' :: indentedItems depth (item :: rest)
  | .object [] => ['\x7b', '\x7d']
  | .object (member :: rest) => '\x7b' :: indentedMembers depth (member :: rest)
  | .null => ['n', 'u', 'l', 'l']
  | .bool true => ['t', 'r', 'u', 'e']
  | .bool false => ['f', 'a', 'l', 's', 'e']
  | .number value => writeNumeral value
  | .text content => quote content

/-- The items of an array nested at a given depth, each on a line of its own. -/
def indentedItems (depth : Nat) : List Json → List Char
  | [] => newline depth ++ [']']
  | [item] => newline (depth + 1) ++ indented (depth + 1) item ++ newline depth ++ [']']
  | item :: next :: rest =>
      newline (depth + 1) ++ indented (depth + 1) item ++
        ',' :: indentedItems depth (next :: rest)

/-- The members of an object nested at a given depth, each on a line of its
own. -/
def indentedMembers (depth : Nat) : List (String × Json) → List Char
  | [] => newline depth ++ ['\x7d']
  | [(key, value)] =>
      newline (depth + 1) ++ quote key ++ ':' :: ' ' ::
        (indented (depth + 1) value ++ newline depth ++ ['\x7d'])
  | (key, value) :: next :: rest =>
      newline (depth + 1) ++ quote key ++ ':' :: ' ' ::
        (indented (depth + 1) value ++ ',' :: indentedMembers depth (next :: rest))

end

def toText (document : Json) : String := String.ofList document.compact

/-- The text of a document with one item or member per line. -/
def toIndentedText (document : Json) : String := String.ofList (document.indented 0)

end Json

end BlockStage

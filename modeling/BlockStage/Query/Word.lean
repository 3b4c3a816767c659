/-!
# Words of commands

A command is made of words: names and keywords, literals and signs.  A name may be
in quotes of several kinds, and only one that is not can be a keyword.  All texts
are byte by byte, each character standing for one byte.
-/

namespace BlockStage

namespace Query

/-- A word of a command. -/
inductive Word where
  /-- A name or a keyword, and the sign with which it is quoted. -/
  | name (text : String) (quote : Option Char)
  /-- A text in single quotes. -/
  | text (content : String)
  /-- Bytes in hexadecimal digits. -/
  | blob (digits : String)
  /-- A number without the lines that may divide its digits. -/
  | number (digits : String)
  /-- A value that is given with the command. -/
  | parameter (text : String)
  /-- A sign of one character or more. -/
  | sign (text : String)
  /-- What is no word at all. -/
  | illegal
deriving DecidableEq

namespace Word

def isNamePart (character : Char) : Bool :=
  character.isAlphanum || character == '_' || character == '$' || decide (character.toNat ≥ 128)

def isBlank (character : Char) : Bool :=
  character == ' ' || character == '\t' || character == '\n' || character == '\r' ||
    character == '\x0c'

def isHexDigit (character : Char) : Bool :=
  character.isDigit || decide ('a' ≤ character.toLower ∧ character.toLower ≤ 'f')

def shortSigns : List Char := "();,.+-*/%=<>|&~".toList

def longSigns : List String := ["->>", "->", "==", "<=", "<>", "<<", ">=", ">>", "!=", "||"]

/-- Splits quoted text at its end, if it has one.  A closing sign written twice is
part of the text. -/
def quoted? (close : Char) : List Char → Option (List Char × List Char)
  | [] => none
  | [character] => if character = close then some ([], []) else none
  | first :: second :: rest =>
      if first = close then
        if second = close ∧ close ≠ ']' then
          (quoted? close rest).map fun (inside, rest) => (first :: inside, rest)
        else some ([], second :: rest)
      else (quoted? close (second :: rest)).map fun (inside, rest) => (first :: inside, rest)

def afterRemark : List Char → List Char
  | '*' :: '/' :: rest => rest
  | _ :: rest => afterRemark rest
  | [] => []

/-! ### Numbers -/

/-- Splits off a run of digits that may be divided by lines. -/
def digitRun (isDigit : Char → Bool) (characters : List Char) : List Char × List Char :=
  characters.span fun character => isDigit character || character == '_'

def exponentRun : List Char → List Char × List Char
  | mark :: rest =>
      let (plus, digits) :=
        match rest with
        | first :: digits => if first = '+' ∨ first = '-' then ([first], digits) else ([], rest)
        | [] => ([], [])
      if (mark = 'e' ∨ mark = 'E') ∧ digits.head?.any Char.isDigit then
        let (run, rest) := digitRun Char.isDigit digits
        (mark :: plus ++ run, rest)
      else ([], mark :: rest)
  | [] => ([], [])

def numberRun (characters : List Char) : List Char × List Char :=
  match characters with
  | '0' :: mark :: digit :: rest =>
      if (mark = 'x' ∨ mark = 'X') ∧ isHexDigit digit then
        let (run, rest) := digitRun isHexDigit (digit :: rest)
        ('0' :: 'x' :: run, rest)
      else decimalRun characters
  | _ => decimalRun characters
where
  /-- Splits off a number in decimal digits. -/
  decimalRun (characters : List Char) : List Char × List Char :=
    let (whole, rest) := digitRun Char.isDigit characters
    let (fraction, rest) :=
      match rest with
      | '.' :: rest =>
          let (run, rest) := digitRun Char.isDigit rest
          ('.' :: run, rest)
      | rest => ([], rest)
    let (exponent, rest) := exponentRun rest
    (whole ++ fraction ++ exponent, rest)

def isWellDivided (isDigit : Char → Bool) : List Char → Bool
  | first :: '_' :: third :: rest =>
      isDigit first && isDigit third && isWellDivided isDigit (third :: rest)
  | [_, '_'] => false
  | _ :: rest => isWellDivided isDigit rest
  | [] => true

def ofNumber (run : List Char) : Word :=
  let isDigit := if run.take 2 = ['0', 'x'] then isHexDigit else Char.isDigit
  if isWellDivided isDigit run then .number (String.ofList (run.filter (· != '_'))) else .illegal

/-! ### All words -/

def quotation (start : Char) (rest : List Char) : Word × List Char :=
  let close := if start = '[' then ']' else start
  match quoted? close rest with
  | none => (.illegal, [])
  | some (content, rest) =>
      let content := String.ofList content
      (if start = '\x27' then .text content else .name content (some start), rest)

/-- Splits off bytes in hexadecimal digits, behind the opening quote. -/
def blobRun (rest : List Char) : Word × List Char :=
  let (digits, rest) := rest.span isHexDigit
  if rest.head? = some '\x27' ∧ digits.length % 2 = 0 then
    (.blob (String.ofList digits), rest.drop 1)
  else (.illegal, [])

def parameterRun (start : Char) (rest : List Char) : Word × List Char :=
  let isPart := if start = '?' then Char.isDigit else isNamePart
  let (run, rest) := rest.span isPart
  if run.isEmpty && start != '?' then (.illegal, rest)
  else (.parameter (String.ofList (start :: run)), rest)

def signRun (characters : List Char) : Word × List Char :=
  match longSigns.find? fun long => long.toList.isPrefixOf characters with
  | some long => (.sign long, characters.drop long.length)
  | none =>
      match characters with
      | character :: rest =>
          if shortSigns.contains character then (.sign (String.singleton character), rest)
          else (.illegal, rest)
      | [] => (.illegal, [])

/-- The first word of a text that starts with something else than a blank, and
what follows it. -/
def first (character : Char) (rest : List Char) : Word × List Char :=
  if character.isDigit ∨ character = '.' ∧ rest.head?.any Char.isDigit then
    let (run, rest) := numberRun (character :: rest)
    if rest.head?.any isNamePart then (.illegal, rest.dropWhile isNamePart)
    else (ofNumber run, rest)
  else if "\x22\x27\x60[".toList.contains character then quotation character rest
  else if (character = 'x' ∨ character = 'X') ∧ rest.head? = some '\x27' then
    blobRun (rest.drop 1)
  else if "?$@:#".toList.contains character then parameterRun character rest
  else if isNamePart character then
    let (run, rest) := rest.span isNamePart
    (.name (String.ofList (character :: run)) none, rest)
  else signRun (character :: rest)

/-- The words of a text, with fuel for its characters. -/
def wordsFrom : Nat → List Char → List Word
  | 0, _ => []
  | _, [] => []
  | fuel + 1, '-' :: '-' :: rest => wordsFrom fuel (rest.dropWhile (· != '\n'))
  | fuel + 1, '/' :: '*' :: next :: rest => wordsFrom fuel (afterRemark (next :: rest))
  | fuel + 1, '\xef' :: '\xbb' :: '\xbf' :: rest => wordsFrom fuel rest
  | fuel + 1, character :: rest =>
      if isBlank character then wordsFrom fuel rest
      else
        let (word, rest) := first character rest
        word :: wordsFrom fuel rest

def words (text : String) : List Word :=
  let characters := text.toList.takeWhile (· != '\x00')
  wordsFrom characters.length characters

def reserved : List String :=
  ["add", "all", "alter", "and", "as", "autoincrement", "between", "case", "check", "collate",
    "commit", "constraint", "create", "default", "deferrable", "delete", "distinct", "drop",
    "else", "escape", "except", "exists", "foreign", "from", "group", "having", "in", "index",
    "insert", "intersect", "into", "is", "isnull", "join", "limit", "not", "nothing", "notnull",
    "null", "on", "or", "order", "primary", "references", "returning", "select", "set", "table",
    "then", "to", "transaction", "union", "unique", "update", "using", "values", "when", "where"]

def joining : List String := ["cross", "full", "inner", "left", "natural", "outer", "right"]

def isKey (word : Word) (text : String) : Bool :=
  match word with
  | .name written none => written.toLower == text
  | _ => false

end Word

end Query

end BlockStage

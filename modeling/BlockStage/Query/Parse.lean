import BlockStage.Query.Word

/-!
# Reading words

A reader takes words from the front of a list, and may find them not well formed.
Keywords are told from names by where they stand: most of them may be names too.
-/

namespace BlockStage

namespace Query

/-- A reader of words, which may find them not well formed. -/
abbrev Parse := StateT (List Word) Option

namespace Parse

variable {α : Type}

def fail : Parse α := fun _ => none

def peek : Parse (Option Word) := fun words => some (words.head?, words)

/-- Whether the words that follow start with some keywords. -/
def follow (keys : List String) : Parse Bool := fun words =>
  some (keys.length ≤ words.length && (keys.zip words).all (fun (key, word) => word.isKey key),
    words)

def next : Parse Word := fun words =>
  match words with
  | word :: rest => some (word, rest)
  | [] => none

def acceptKey (key : String) : Parse Bool := fun words =>
  if words.head?.any (·.isKey key) then some (true, words.drop 1) else some (false, words)

def acceptKeys (keys : List String) : Parse Bool := do
  if ← follow keys then
    modify fun words => words.drop keys.length
    return true
  else return false

def acceptSign (sign : String) : Parse Bool := fun words =>
  if words.head? = some (.sign sign) then some (true, words.drop 1) else some (false, words)

def expectKeys (keys : List String) : Parse Unit := do
  if !(← acceptKeys keys) then fail

def expectSign (sign : String) : Parse Unit := do
  if !(← acceptSign sign) then fail

def expectOne (keys : List String) : Parse String := do
  match ← next with
  | .name text none => if keys.contains text.toLower then return text.toLower else fail
  | _ => fail

def isName : Word → Bool
  | .name text quote => quote.isSome || !Word.reserved.contains text.toLower
  | .text _ => true
  | _ => false

def takeWritten : Parse String := do
  match ← next with
  | .name text quote => if isName (.name text quote) then return text else fail
  | .text content => return content
  | _ => fail

def takeName : Parse String := do return (← takeWritten).toLower

/-- Takes a name that may have the name of a schema in front. -/
def takeQualified : Parse (Option String × String) := do
  let first ← takeName
  if ← acceptSign "." then return (some first, ← takeName) else return (none, first)

/-- Whether a word can be a name that stands behind something without a keyword. -/
def isLabel : Word → Bool
  | .name text none =>
      !(Word.reserved ++ Word.joining ++ ["indexed"]).contains text.toLower
  | .name _ (some _) => true
  | .text _ => true
  | _ => false

/-- Takes the name that something is given, if there is one. -/
def label : Parse (Option String) := do
  if ← acceptKey "as" then return some (← takeName)
  else
    let isWindow := match (← get) with
      | first :: second :: third :: _ => first.isKey "window" && isName second && third.isKey "as"
      | _ => false
    match ← peek with
    | some word => if isLabel word && !isWindow then return some (← takeName) else return none
    | none => return none

/-- Takes items with commas between them, with fuel for their number. -/
def separatedFrom (item : Parse α) : Nat → Parse (List α)
  | 0 => fail
  | fuel + 1 => do
      let first ← item
      if ← acceptSign "," then return first :: (← separatedFrom item fuel) else return [first]

def separated (item : Parse α) : Parse (List α) := do
  separatedFrom item ((← get).length + 1)

def bracketed (item : Parse α) : Parse α := do
  expectSign "("
  let value ← item
  expectSign ")"
  return value

/-- Takes an item behind a keyword, if that is there. -/
def behind (key : String) (item : Parse α) : Parse (Option α) := do
  if ← acceptKey key then return some (← item) else return none

/-- Takes items as long as there are some, with fuel for their number. -/
def manyFrom (item : Parse (Option α)) : Nat → Parse (List α)
  | 0 => return []
  | fuel + 1 => do
      match ← item with
      | some first => return first :: (← manyFrom item fuel)
      | none => return []

def many (item : Parse (Option α)) : Parse (List α) := do
  manyFrom item ((← get).length + 1)

/-- Passes over words up to the bracket that closes those that are open. -/
def closeBrackets : Nat → List Word → Option (List Word)
  | _, [] => none
  | _, .illegal :: _ => none
  | 0, .sign ")" :: rest => some rest
  | depth + 1, .sign ")" :: rest => closeBrackets depth rest
  | depth, .sign "(" :: rest => closeBrackets (depth + 1) rest
  | depth, _ :: rest => closeBrackets depth rest

def brackets : Parse Unit := do
  expectSign "("
  fun words => (closeBrackets 0 words).map fun rest => ((), rest)

end Parse

end Query

end BlockStage

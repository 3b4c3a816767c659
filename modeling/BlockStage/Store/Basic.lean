import BlockStage.Digest
import BlockStage.Wire.Program

/-!
# Stored programs

A store keeps programs under keys, each as its text together with the digest
of that text.  This file holds what all stores share: the stored form, the
listing, and the ways in which a store can refuse.
-/

namespace BlockStage

def defaultKey : String := "graphicalang-program-v1"

/-- The text of a program and the digest recorded for it. -/
structure StoredText where
  content : String
  digest : String
deriving DecidableEq

def StoredText.of (content : String) : StoredText := ⟨content, Digest.ofText content⟩

/-- One line of a store's listing. -/
structure Summary where
  key : String
  digest : String
  size : Nat
deriving DecidableEq

/-- Why a store refuses. -/
inductive StoreError where
  /-- A text that is no program. -/
  | unreadable (fault : Fault)
  /-- A program with a constant that has no written form. -/
  | nonFinite (constant : NonFiniteConstant)
  /-- A key without a program. -/
  | notFound (key : String)
  /-- A text that does not have the digest recorded for it. -/
  | integrity (key recorded actual : String)
  /-- A file that cannot be used as a database. -/
  | unusable
  /-- A database whose layout is not the current one and cannot be made so. -/
  | migration
deriving DecidableEq

def Fault.message : Fault → String
  | .premature => "the text ends too early"
  | .malformed => "the text is not well formed"
  | .mismatched => "the text does not have the expected shape"

def StoreError.message : StoreError → String
  | .unreadable fault => "serialization error: " ++ fault.message
  | .nonFinite constant => "constant at expression " ++ constant.expression ++ " is not finite"
  | .notFound key => "program not found: " ++ key
  | .integrity key recorded actual =>
      "integrity error: program " ++ key ++ ": stored hash " ++ recorded ++
        " does not match content hash " ++ actual
  | .unusable => "sqlite error: the file cannot be used as a database"
  | .migration => "migration error: the database has another layout"

namespace StoredText

def ofProgram (program : Program) : Except StoreError StoredText :=
  match program.encode with
  | .ok content => .ok (.of content)
  | .error constant => .error (.nonFinite constant)

def toProgram (stored : StoredText) : Except StoreError Program :=
  match Program.decode stored.content with
  | .ok program => .ok program
  | .error fault => .error (.unreadable fault)

/-- The program of a text that was stored under a key.  A text that does not have the
digest recorded for it is refused before it is read. -/
def checked (stored : StoredText) (key : String) : Except StoreError Program :=
  let actual := Digest.ofText stored.content
  if actual = stored.digest then stored.toProgram
  else .error (.integrity key stored.digest actual)

/-- Puts a stored text under a key, unless the digest recorded there says that
it is already present. -/
def putUnder (texts : Arena StoredText) (key : String) (stored : StoredText) : Arena StoredText :=
  match texts.find? key with
  | some present =>
      if present.digest = stored.digest then texts else texts.insert key stored
  | none => texts.insert key stored

/-- The listing of some stored texts, ascending by key. -/
def listing (texts : Arena StoredText) : List Summary :=
  let summaries := texts.entries.map fun entry =>
    (⟨entry.1, entry.2.digest, entry.2.content.utf8ByteSize⟩ : Summary)
  summaries.mergeSort fun first second => decide (first.key ≤ second.key)

end StoredText

/-- What a store loaded, an empty program when there was nothing. -/
def orEmpty (loaded : Except StoreError (Option Program)) : Except StoreError Program :=
  loaded.map fun program => program.getD Program.empty

/-- What a store loaded, an error when there was nothing. -/
def orNotFound (key : String) (loaded : Except StoreError (Option Program)) :
    Except StoreError Program :=
  match loaded with
  | .ok (some program) => .ok program
  | .ok none => .error (.notFound key)
  | .error error => .error error

end BlockStage

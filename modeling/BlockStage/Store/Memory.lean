import BlockStage.Store.Basic

/-!
# The store in memory

Programs that only have to outlive an editing session are kept in memory, each as its
text with the digest in its own words.  The store is the only writer of its texts, so it
trusts the digests it recorded.
-/

namespace BlockStage

/-- The text of a program and its digest, not written out. -/
structure MemoryText where
  content : String
  digest : Digest.Chain

def MemoryText.of (content : String) : MemoryText := ⟨content, Digest.rawOfText content⟩

def MemoryText.summary (key : String) (text : MemoryText) : Summary where
  key
  digest := Digest.hex text.digest
  size := text.content.utf8ByteSize

/-- Programs kept in memory. -/
structure MemoryStore where
  texts : Arena MemoryText

namespace MemoryStore

def empty : MemoryStore := ⟨Arena.empty⟩

def text? (store : MemoryStore) (key : String) : Option String :=
  (store.texts.find? key).map MemoryText.content

def load (store : MemoryStore) (key : String) : Except StoreError (Option Program) :=
  match store.texts.find? key with
  | some text =>
      match Program.decode text.content with
      | .ok program => .ok (some program)
      | .error fault => .error (.unreadable fault)
  | none => .ok none

def loadOrEmpty (store : MemoryStore) (key : String) : Except StoreError Program :=
  orEmpty (store.load key)

def loadExisting (store : MemoryStore) (key : String) : Except StoreError Program :=
  orNotFound key (store.load key)

/-- Stores a program; one whose digest is the recorded one is not written again. -/
def save (store : MemoryStore) (key : String) (program : Program) :
    Except StoreError MemoryStore :=
  match program.encode with
  | .error constant => .error (.nonFinite constant)
  | .ok content =>
      let text := MemoryText.of content
      if (store.texts.find? key).map MemoryText.digest = some text.digest then .ok store
      else .ok ⟨store.texts.insert key text⟩

def delete (store : MemoryStore) (key : String) : Except StoreError MemoryStore :=
  match store.texts.find? key with
  | some _ => .ok ⟨store.texts.erase key⟩
  | none => .error (.notFound key)

def list (store : MemoryStore) : List Summary :=
  (store.texts.entries.map fun entry => entry.2.summary entry.1).mergeSort
    fun first second => decide (first.key ≤ second.key)

end MemoryStore

end BlockStage

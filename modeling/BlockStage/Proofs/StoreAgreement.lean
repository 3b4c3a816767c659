import BlockStage.Proofs.ProgramRoundTrip
import BlockStage.Proofs.RowList
import BlockStage.Sample
import BlockStage.Store.Database
import BlockStage.Store.Memory

/-! # The store in memory and a database answer alike

The store in memory compares digests word by word and trusts them when it loads; a
database compares them as texts and checks them.  The two cannot be told apart: the digits
of a digest determine its words, and every text that a store keeps is the text of a
program with its own digest, whether or not another text has the same one.
-/

namespace BlockStage

namespace Digest

theorem digitChar_injective : ∀ first < 16, ∀ second < 16,
    Nat.digitChar first = Nat.digitChar second → first = second := by
  decide

theorem hexByte_injective {first second : UInt32} (firstSmall : first.toNat < 256)
    (secondSmall : second.toNat < 256) (same : hexByte first = hexByte second) :
    first.toNat = second.toNat := by
  simp only [hexByte, List.cons.injEq, and_true] at same
  have high := digitChar_injective _ (by omega) _ (by omega) same.1
  have low := digitChar_injective _ (by omega) _ (by omega) same.2
  omega

theorem toNat_low (word : UInt32) : (word &&& 0xFF).toNat = word.toNat % 256 := by
  rw [UInt32.toNat_and]
  exact Nat.and_two_pow_sub_one_eq_mod _ 8

/-- A byte of a word, as the word is divided into bytes. -/
theorem toNat_byte (word shift : UInt32) (small : shift.toNat < 32) :
    ((word >>> shift) &&& 0xFF).toNat = word.toNat / 2 ^ shift.toNat % 256 := by
  rw [toNat_low, UInt32.toNat_shiftRight, Nat.mod_eq_of_lt small, Nat.shiftRight_eq_div_pow]

theorem hexWord_injective {first second : UInt32} (same : hexWord first = hexWord second) :
    first = second := by
  have small : ∀ word : UInt32, (word &&& 0xFF).toNat < 256 := by
    intro word
    rw [toNat_low]
    exact Nat.mod_lt _ (by decide)
  obtain ⟨same, fourth⟩ := List.append_inj same rfl
  obtain ⟨same, third⟩ := List.append_inj same rfl
  obtain ⟨lowest, next⟩ := List.append_inj same rfl
  have sameLowest := hexByte_injective (small _) (small _) lowest
  have sameNext := hexByte_injective (small _) (small _) next
  have sameThird := hexByte_injective (small _) (small _) third
  have sameFourth := hexByte_injective (small _) (small _) fourth
  rw [toNat_low, toNat_low] at sameLowest
  rw [toNat_byte _ _ (by decide), toNat_byte _ _ (by decide)] at sameNext sameThird sameFourth
  have firstBound := first.toNat_lt
  have secondBound := second.toNat_lt
  apply UInt32.toNat_inj.mp
  simp only [UInt32.reduceToNat] at sameNext sameThird sameFourth
  omega

theorem flatMap_hexWord_injective {first second : List UInt32}
    (same : first.flatMap hexWord = second.flatMap hexWord) : first = second := by
  induction first generalizing second with
  | nil =>
      cases second with
      | nil => rfl
      | cons word rest => cases same
  | cons word rest ih =>
      cases second with
      | nil => cases same
      | cons other others =>
          obtain ⟨head, tail⟩ := List.append_inj same rfl
          rw [hexWord_injective head, ih tail]

theorem hex_injective {first second : Chain} (same : hex first = hex second) : first = second := by
  have words := flatMap_hexWord_injective (String.ofList_injective same)
  exact Vector.toList_inj.mp words

end Digest

/-! ### Calls and answers -/

/-- What can be asked of a store. -/
inductive StoreCall where
  | save (key : String) (program : Program)
  | delete (key : String)
  | load (key : String)
  | loadOrEmpty (key : String)
  | loadExisting (key : String)
  | list

/-- What a store answers. -/
inductive StoreAnswer where
  | done
  | found (program : Option Program)
  | given (program : Program)
  | listed (summaries : List Summary)
  | refused (error : StoreError)

def StoreAnswer.ofResult {α : Type} (answer : α → StoreAnswer) : Except StoreError α → StoreAnswer
  | .ok value => answer value
  | .error error => .refused error

/-- The answer for a change, and the store afterwards. -/
def StoreAnswer.ofChange {σ : Type} (before : σ) : Except StoreError σ → StoreAnswer × σ
  | .ok after => (.done, after)
  | .error error => (.refused error, before)

def StoreCall.keys : StoreCall → List String
  | .save key _ => [key]
  | .delete key => [key]
  | .load key => [key]
  | .loadOrEmpty key => [key]
  | .loadExisting key => [key]
  | .list => []

def StoreCall.contents : StoreCall → List String
  | .save _ program => program.encode.toOption.toList
  | _ => []

/-- What the store in memory answers to a call, and the store afterwards. -/
def MemoryStore.call (store : MemoryStore) : StoreCall → StoreAnswer × MemoryStore
  | .save key program => StoreAnswer.ofChange store (store.save key program)
  | .delete key => StoreAnswer.ofChange store (store.delete key)
  | .load key => (.ofResult .found (store.load key), store)
  | .loadOrEmpty key => (.ofResult .given (store.loadOrEmpty key), store)
  | .loadExisting key => (.ofResult .given (store.loadExisting key), store)
  | .list => (.listed store.list, store)

/-- What a database answers to a call, and what it holds afterwards. -/
def Holding.call {σ : Type} [RowKeeper σ] (holding : Holding σ) :
    StoreCall → StoreAnswer × Holding σ
  | .save key program => StoreAnswer.ofChange holding (holding.save key program)
  | .delete key =>
      let (result, after) := holding.delete key
      (.ofResult (fun _ => .done) result, after)
  | .load key => (.ofResult .found (holding.load key), holding)
  | .loadOrEmpty key => (.ofResult .given (holding.loadOrEmpty key), holding)
  | .loadExisting key => (.ofResult .given (holding.loadExisting key), holding)
  | .list => (.ofResult .listed holding.list, holding)

/-- The answers to calls that are made one after the other. -/
def StoreCall.answers {σ : Type} (call : σ → StoreCall → StoreAnswer × σ) :
    σ → List StoreCall → List StoreAnswer
  | _, [] => []
  | store, next :: later => (call store next).1 :: answers call (call store next).2 later

def MemoryStore.answers : MemoryStore → List StoreCall → List StoreAnswer :=
  StoreCall.answers MemoryStore.call

def Holding.answers {σ : Type} [RowKeeper σ] : Holding σ → List StoreCall → List StoreAnswer :=
  StoreCall.answers Holding.call

/-! ### What the two have in common -/

/-- A text in memory as a row keeps it, with its digest written out. -/
def MemoryText.written (text : MemoryText) : StoredText := ⟨text.content, Digest.hex text.digest⟩

/-- The rows are the texts in memory, and each text is the one of a program with its own
digest. -/
structure MemoryStore.Mirrors (store : MemoryStore) (rows : Arena StoredText) : Prop where
  find?_eq : ∀ key, rows.find? key = (store.texts.find? key).map MemoryText.written
  genuine : ∀ {key text}, store.texts.find? key = some text →
    text = .of text.content ∧ ∃ program : Program, program.encode = .ok text.content

namespace MemoryStore

variable {store : MemoryStore} {rows : Arena StoredText}

theorem mirrors_empty : empty.Mirrors Arena.empty where
  find?_eq _ := rfl
  genuine found := by cases found

/-- Both sides load the same, and loading never fails. -/
theorem Mirrors.load (mirrors : store.Mirrors rows) (key : String) :
    ∃ program, store.load key = .ok program ∧ TableStore.load ⟨rows⟩ key = .ok program := by
  have rowFound := mirrors.find?_eq key
  cases found : store.texts.find? key with
  | none =>
      rw [found] at rowFound
      exact ⟨none, by simp [MemoryStore.load, found], by simp [TableStore.load, rowFound]⟩
  | some text =>
      rw [found] at rowFound
      obtain ⟨own, program, encoded⟩ := mirrors.genuine found
      have decoded := Program.decode_of_encode (.inl encoded)
      have checks : text.written.checked key = .ok program := by
        rw [own]
        simp [StoredText.checked, StoredText.toProgram, MemoryText.written, MemoryText.of,
          Digest.ofText, decoded]
      exact ⟨some program, by simp [MemoryStore.load, found, decoded],
        by simp [TableStore.load, rowFound, checks, Except.map]⟩

theorem Mirrors.list (mirrors : store.Mirrors rows) : store.list = StoredText.listing rows := by
  have distinct : ((store.texts.entries.map fun entry => entry.2.summary entry.1).map
      Summary.key).Nodup := by
    rw [List.map_map]
    exact store.texts.keys_nodup
  have rowsDistinct : ((rows.entries.map fun entry => entry.2.summary entry.1).map
      Summary.key).Nodup := by
    rw [List.map_map]
    exact rows.keys_nodup
  have same : (store.texts.entries.map fun entry => entry.2.summary entry.1).Perm
      (rows.entries.map fun entry => entry.2.summary entry.1) := by
    apply (List.perm_ext_iff_of_nodup distinct.of_map rowsDistinct.of_map).mpr
    intro summary
    simp only [List.mem_map, Prod.exists, Arena.mem_entries_iff, mirrors.find?_eq,
      Option.map_eq_some_iff]
    constructor
    · rintro ⟨key, text, found, rfl⟩
      exact ⟨key, text.written, ⟨text, found, rfl⟩, rfl⟩
    · rintro ⟨key, _, ⟨text, found, rfl⟩, rfl⟩
      exact ⟨key, text, found, rfl⟩
  apply Summary.Ascending.eq_of_perm
  · exact Summary.ascending_mergeSort distinct
  · exact StoredText.listing_ascending rows
  · exact (List.mergeSort_perm _ _).trans (same.trans (StoredText.listing_perm rows).symm)

/-- A program is stored on both sides or on neither. -/
theorem Mirrors.save (mirrors : store.Mirrors rows) (key : String) {program : Program}
    {content : String} (encoded : program.encode = .ok content) :
    ∃ after, store.save key program = .ok after ∧
      after.Mirrors (StoredText.putUnder rows key (.of content)) := by
  have inserted : (⟨store.texts.insert key (.of content)⟩ : MemoryStore).Mirrors
      (rows.insert key (.of content)) := by
    constructor
    · intro other
      rw [Arena.find?_insert, Arena.find?_insert, mirrors.find?_eq]
      split <;> rfl
    · intro other text found
      rw [Arena.find?_insert] at found
      split at found
      · obtain rfl := Option.some.inj found
        exact ⟨rfl, program, encoded⟩
      · exact mirrors.genuine found
  have rowFound := mirrors.find?_eq key
  cases found : store.texts.find? key with
  | none =>
      rw [found] at rowFound
      exact ⟨⟨store.texts.insert key (.of content)⟩, by simp [MemoryStore.save, encoded, found],
        by simpa [StoredText.putUnder, rowFound] using inserted⟩
  | some text =>
      rw [found] at rowFound
      by_cases unchanged : text.digest = Digest.rawOfText content
      · have written : Digest.hex text.digest = (StoredText.of content).digest := by
          rw [unchanged]
          rfl
        exact ⟨store, by simp [MemoryStore.save, encoded, found, MemoryText.of, unchanged],
          by simpa [StoredText.putUnder, rowFound, MemoryText.written, written] using mirrors⟩
      · have differs : Digest.hex text.digest ≠ (StoredText.of content).digest :=
          fun same => unchanged (Digest.hex_injective same)
        exact ⟨⟨store.texts.insert key (.of content)⟩,
          by simp [MemoryStore.save, encoded, found, MemoryText.of, unchanged],
          by simpa [StoredText.putUnder, rowFound, MemoryText.written, differs] using inserted⟩

theorem Mirrors.erase (mirrors : store.Mirrors rows) (key : String) :
    (⟨store.texts.erase key⟩ : MemoryStore).Mirrors (rows.erase key) := by
  constructor
  · intro other
    rw [Arena.find?_erase, Arena.find?_erase, mirrors.find?_eq]
    split <;> rfl
  · intro other text found
    rw [Arena.find?_erase] at found
    split at found
    · cases found
    · exact mirrors.genuine found

end MemoryStore

/-! ### One call and many -/

section Agreeing

variable {σ : Type} [RowKeeper σ]

/-- An answer as it should be: a listing ascends by the bytes of its keys, and a store
refuses only programs that have no written form and keys that are not there. -/
def StoreAnswer.IsOrderly : StoreAnswer → Prop
  | .listed summaries => Summary.Ascending summaries
  | .refused error => (∃ constant, error = .nonFinite constant) ∨ ∃ key, error = .notFound key
  | _ => True

/-- A call gets the same answer from both sides, and they still agree after it. -/
theorem call_agrees {store : MemoryStore} {rows : Arena StoredText} {holding : Holding σ}
    {keys contents : List String} (mirrors : store.Mirrors rows)
    (serves : holding.Serves keys contents rows) (call : StoreCall)
    (named : call.keys ⊆ keys) (written : call.contents ⊆ contents) :
    (holding.call call).1 = (store.call call).1 ∧ (store.call call).1.IsOrderly ∧
      ∃ after, (store.call call).2.Mirrors after ∧
        (holding.call call).2.Serves keys contents after := by
  cases call with
  | save key program =>
      have known : key ∈ keys := named List.mem_cons_self
      cases encoded : program.encode with
      | error constant =>
          have ours : store.call (.save key program) = (.refused (.nonFinite constant), store) := by
            simp [MemoryStore.call, MemoryStore.save, encoded, StoreAnswer.ofChange]
          have theirs : holding.call (.save key program) =
              (.refused (.nonFinite constant), holding) := by
            simp [Holding.call, Holding.save_of_nonFinite encoded, StoreAnswer.ofChange]
          rw [ours, theirs]
          exact ⟨rfl, .inl ⟨constant, rfl⟩, rows, mirrors, serves⟩
      | ok content =>
          have stored : content ∈ contents := written (by
            simp [StoreCall.contents, encoded, Except.toOption])
          obtain ⟨after, saved, mirrored⟩ := mirrors.save key encoded
          obtain ⟨held, kept, served⟩ := serves.save known stored encoded
          have ours : store.call (.save key program) = (.done, after) := by
            simp [MemoryStore.call, saved, StoreAnswer.ofChange]
          have theirs : holding.call (.save key program) = (.done, held) := by
            simp [Holding.call, kept, StoreAnswer.ofChange]
          rw [ours, theirs]
          exact ⟨rfl, trivial, _, mirrored, served⟩
  | delete key =>
      obtain ⟨held, removed, served⟩ := serves.delete (named List.mem_cons_self)
      have rowFound := mirrors.find?_eq key
      cases found : store.texts.find? key with
      | none =>
          rw [found] at rowFound
          have ours : store.call (.delete key) = (.refused (.notFound key), store) := by
            simp [MemoryStore.call, MemoryStore.delete, found, StoreAnswer.ofChange]
          have theirs : holding.call (.delete key) = (.refused (.notFound key), held) := by
            simp [Holding.call, removed, Arena.contains, rowFound, StoreAnswer.ofResult]
          rw [ours, theirs]
          refine ⟨rfl, .inr ⟨key, rfl⟩, rows, mirrors, ?_⟩
          rwa [Arena.erase_of_absent rowFound] at served
      | some text =>
          rw [found] at rowFound
          have ours : store.call (.delete key) = (.done, ⟨store.texts.erase key⟩) := by
            simp [MemoryStore.call, MemoryStore.delete, found, StoreAnswer.ofChange]
          have theirs : holding.call (.delete key) = (.done, held) := by
            simp [Holding.call, removed, Arena.contains, rowFound, StoreAnswer.ofResult]
          rw [ours, theirs]
          exact ⟨rfl, trivial, _, mirrors.erase key, served⟩
  | load key =>
      obtain ⟨program, loaded, rowLoaded⟩ := mirrors.load key
      have ours : store.call (.load key) = (.found program, store) := by
        simp [MemoryStore.call, loaded, StoreAnswer.ofResult]
      have theirs : holding.call (.load key) = (.found program, holding) := by
        simp [Holding.call, serves.load (named List.mem_cons_self), rowLoaded,
          StoreAnswer.ofResult]
      rw [ours, theirs]
      exact ⟨rfl, trivial, rows, mirrors, serves⟩
  | loadOrEmpty key =>
      obtain ⟨program, loaded, rowLoaded⟩ := mirrors.load key
      have ours : store.call (.loadOrEmpty key) =
          (.ofResult .given (orEmpty (.ok program)), store) := by
        simp [MemoryStore.call, MemoryStore.loadOrEmpty, loaded]
      have theirs : holding.call (.loadOrEmpty key) =
          (.ofResult .given (orEmpty (.ok program)), holding) := by
        simp [Holding.call, Holding.loadOrEmpty, serves.load (named List.mem_cons_self), rowLoaded]
      rw [ours, theirs]
      exact ⟨rfl, trivial, rows, mirrors, serves⟩
  | loadExisting key =>
      obtain ⟨program, loaded, rowLoaded⟩ := mirrors.load key
      have ours : store.call (.loadExisting key) =
          (.ofResult .given (orNotFound key (.ok program)), store) := by
        simp [MemoryStore.call, MemoryStore.loadExisting, loaded]
      have theirs : holding.call (.loadExisting key) =
          (.ofResult .given (orNotFound key (.ok program)), holding) := by
        simp [Holding.call, Holding.loadExisting, serves.load (named List.mem_cons_self), rowLoaded]
      rw [ours, theirs]
      cases program with
      | none => exact ⟨rfl, .inr ⟨key, rfl⟩, rows, mirrors, serves⟩
      | some program => exact ⟨rfl, trivial, rows, mirrors, serves⟩
  | list =>
      have ours : store.call .list = (.listed (StoredText.listing rows), store) := by
        simp [MemoryStore.call, mirrors.list]
      have theirs : holding.call .list = (.listed (StoredText.listing rows), holding) := by
        simp [Holding.call, serves.list, StoreAnswer.ofResult, TableStore.list]
      rw [ours, theirs]
      exact ⟨rfl, StoredText.listing_ascending rows, rows, mirrors, serves⟩

theorem answers_agree {store : MemoryStore} {rows : Arena StoredText} {holding : Holding σ}
    {keys contents : List String} (mirrors : store.Mirrors rows)
    (serves : holding.Serves keys contents rows) (calls : List StoreCall)
    (named : calls.flatMap StoreCall.keys ⊆ keys)
    (written : calls.flatMap StoreCall.contents ⊆ contents) :
    holding.answers calls = store.answers calls ∧
      ∀ answer ∈ store.answers calls, answer.IsOrderly := by
  induction calls generalizing store rows holding with
  | nil => exact ⟨rfl, fun _ member => by cases member⟩
  | cons call later ih =>
      rw [List.flatMap_cons, List.append_subset] at named written
      obtain ⟨same, orderly, after, mirrored, served⟩ :=
        call_agrees mirrors serves call named.1 written.1
      obtain ⟨sameLater, orderlyLater⟩ := ih mirrored served named.2 written.2
      refine ⟨congrArg₂ List.cons same sameLater, ?_⟩
      intro answer member
      rcases List.mem_cons.mp member with rfl | isLater
      · exact orderly
      · exact orderlyLater answer isLater

/-- Whatever is asked of a new store in memory and of a new database, both answer the
same.  Listings ascend strictly by the bytes of the keys, and nothing is refused but
programs without a written form and keys that are not there. -/
theorem stores_answer_alike (holding : Holding σ) (calls : List StoreCall)
    (serves : holding.Serves (calls.flatMap StoreCall.keys) (calls.flatMap StoreCall.contents)
      Arena.empty) :
    holding.answers calls = MemoryStore.empty.answers calls ∧
      (∀ summaries, .listed summaries ∈ holding.answers calls →
        summaries.Pairwise fun first second => textBytes first.key < textBytes second.key) ∧
      ∀ error, .refused error ∈ holding.answers calls →
        (∃ constant, error = .nonFinite constant) ∨ ∃ key, error = .notFound key := by
  obtain ⟨same, orderly⟩ :=
    answers_agree MemoryStore.mirrors_empty serves calls (fun _ => id) (fun _ => id)
  rw [same]
  exact ⟨rfl, fun _ listed => orderly _ listed, fun _ refused => orderly _ refused⟩

end Agreeing

/-- Calls of every kind: a program that is stored twice, one that cannot be stored, keys
that stand in a listing against the order in which they were stored, and keys that are
not there. -/
def mixedCalls : List StoreCall :=
  [.save "ü" sampleProgram, .save "a" Program.empty, .save "a" Program.empty,
    .save "a" (Program.empty.setExpression "0" (some (.constant (0.0 / 0.0)))), .list,
    .delete "b", .loadExisting "b", .load "ü", .delete "a", .loadOrEmpty "a", .list]

/-- A database that has just been opened answers the mixed calls as the store in memory
does, and so does one that keeps its rows in a list. -/
theorem mixedCalls_answered_alike : ∃ table, Database.new.connect = .ok table ∧
    (.own table : Holding).answers mixedCalls = MemoryStore.empty.answers mixedCalls ∧
    (∀ summaries, .listed summaries ∈ (.own table : Holding).answers mixedCalls →
      summaries.Pairwise fun first second => textBytes first.key < textBytes second.key) ∧
    (Holding.shared (RowList.ofTable .empty)).answers mixedCalls =
      MemoryStore.empty.answers mixedCalls := by
  have own := stores_answer_alike (.own .empty : Holding) mixedCalls rfl
  have listed := stores_answer_alike (.shared (RowList.ofTable .empty)) mixedCalls
    (RowList.holds (RowList.presents_ofTable .empty) _ _).serves
  exact ⟨.empty, rfl, own.1, own.2.1, listed.1⟩

end BlockStage

import BlockStage.Proofs.EditPersistence
import BlockStage.Proofs.StoreAgreement

/-! # A store is a map in which the last write wins

A store writes a text only if its digest differs from the recorded one, so what stands
under a key after many calls depends on comparisons that were made along the way.  The
outcome does not: under each key stands the program of the last save that was done for it,
or nothing if a deletion followed.  The store in memory is followed call by call; a
database answers as that store does.
-/

namespace BlockStage

namespace StoreCall

/-! ### Calls one after the other -/

section Calling

variable {σ : Type} (call : σ → StoreCall → StoreAnswer × σ)

def after : σ → List StoreCall → σ
  | store, [] => store
  | store, next :: later => after (call store next).2 later

def history : σ → List StoreCall → List (StoreCall × StoreAnswer)
  | _, [] => []
  | store, next :: later => (next, (call store next).1) :: history (call store next).2 later

theorem after_concat (store : σ) (calls : List StoreCall) (last : StoreCall) :
    after call store (calls ++ [last]) = (call (after call store calls) last).2 := by
  induction calls generalizing store with
  | nil => rfl
  | cons next later ih => exact ih (call store next).2

theorem history_concat (store : σ) (calls : List StoreCall) (last : StoreCall) :
    history call store (calls ++ [last]) =
      history call store calls ++ [(last, (call (after call store calls) last).1)] := by
  induction calls generalizing store with
  | nil => rfl
  | cons next later ih => exact congrArg (List.cons _) (ih (call store next).2)

end Calling

/-- What a call that was done has left under a key: a program, or nothing.  Other calls
leave the key alone. -/
def left? (key : String) : StoreCall × StoreAnswer → Option (Option Program)
  | (.save other program, .done) => if other = key then some (some program) else none
  | (.delete other, .done) => if other = key then some none else none
  | _ => none

/-- The program that stands under a key by the last call that was done for it. -/
def kept (history : List (StoreCall × StoreAnswer)) (key : String) : Option Program :=
  (history.reverse.findSome? (left? key)).join

theorem kept_concat (history : List (StoreCall × StoreAnswer)) (last : StoreCall × StoreAnswer)
    (key : String) : kept (history ++ [last]) key = (left? key last).getD (kept history key) := by
  rw [kept, List.reverse_append, List.reverse_singleton, List.singleton_append,
    List.findSome?_cons]
  cases left? key last with
  | none => rfl
  | some left => rfl

def savedTexts (key : String) (calls : List StoreCall) : List String :=
  calls.flatMap fun
    | .save other program => if other = key then program.encode.toOption.toList else []
    | _ => []

theorem savedTexts_subset_contents (key : String) (calls : List StoreCall) :
    savedTexts key calls ⊆ calls.flatMap StoreCall.contents := by
  intro content isText
  obtain ⟨next, isCall, saved⟩ := List.mem_flatMap.mp isText
  refine List.mem_flatMap.mpr ⟨next, isCall, ?_⟩
  cases next with
  | save other program =>
      dsimp only at saved
      split at saved
      · exact saved
      · cases saved
  | _ => cases saved

end StoreCall

open StoreCall (after history kept left? savedTexts)

/-! ### The store in memory, call by call -/

namespace MemoryStore

/-- Under each key stands the text of the kept program, which is one of the key's texts,
with its own digest. -/
structure Remembers (store : MemoryStore) (blobs : String → List String)
    (kept : String → Option Program) : Prop where
  absent : ∀ {key}, kept key = none → store.texts.find? key = none
  present : ∀ {key program}, kept key = some program → ∃ content ∈ blobs key,
    program.encode = .ok content ∧ store.texts.find? key = some (.of content)

variable {store : MemoryStore} {blobs : String → List String} {kept : String → Option Program}

theorem remembers_empty (blobs : String → List String) :
    empty.Remembers blobs fun _ => none where
  absent _ := rfl
  present isKept := by cases isKept

/-- A text that is saved is found, whether or not it had to be written. -/
theorem Remembers.find?_save (remembers : store.Remembers blobs kept) {key content : String}
    {program : Program} (collisionFree : CollisionFree (blobs key)) (isText : content ∈ blobs key)
    (encoded : program.encode = .ok content) :
    ∃ saved, store.save key program = .ok saved ∧
      ∀ other, saved.texts.find? other =
        if other = key then some (.of content) else store.texts.find? other := by
  by_cases recorded : (store.texts.find? key).map MemoryText.digest =
      some (MemoryText.of content).digest
  · refine ⟨store, by simp [save, encoded, recorded], fun other => ?_⟩
    split
    · rename_i same
      rw [same]
      cases stands : kept key with
      | none =>
          rw [remembers.absent stands] at recorded
          cases recorded
      | some old =>
          obtain ⟨oldContent, isOldText, -, found⟩ := remembers.present stands
          rw [found, Option.map_some] at recorded
          -- The recorded digest is the one of the new text, so the texts are the same.
          have sameDigest : Digest.ofText oldContent = Digest.ofText content :=
            congrArg Digest.hex (Option.some.inj recorded)
          rw [found, collisionFree oldContent isOldText content isText sameDigest]
    · rfl
  · refine ⟨⟨store.texts.insert key (.of content)⟩, by simp [save, encoded, recorded], ?_⟩
    exact fun other => Arena.find?_insert _ _ _ _

/-- A change under one key keeps what is remembered under the others. -/
theorem Remembers.update (remembers : store.Remembers blobs kept) {changed : MemoryStore}
    {key : String} {left : Option Program}
    (elsewhere : ∀ other, other ≠ key → changed.texts.find? other = store.texts.find? other)
    (absent : left = none → changed.texts.find? key = none)
    (present : ∀ {program}, left = some program → ∃ content ∈ blobs key,
      program.encode = .ok content ∧ changed.texts.find? key = some (.of content)) :
    changed.Remembers blobs fun other =>
      (if key = other then some left else none).getD (kept other) := by
  constructor
  · intro other gone
    by_cases same : key = other
    · subst same
      exact absent (by simpa using gone)
    · rw [elsewhere other (Ne.symm same)]
      exact remembers.absent (by simpa [same] using gone)
  · intro other program isKept
    by_cases same : key = other
    · subst same
      exact present (by simpa using isKept)
    · rw [elsewhere other (Ne.symm same)]
      exact remembers.present (by simpa [same] using isKept)

/-- One call keeps what was kept, but for what it has left. -/
theorem Remembers.call (remembers : store.Remembers blobs kept)
    (collisionFree : ∀ key, CollisionFree (blobs key)) (next : StoreCall)
    (written : ∀ key, savedTexts key [next] ⊆ blobs key) :
    (store.call next).2.Remembers blobs fun key =>
      (left? key (next, (store.call next).1)).getD (kept key) := by
  cases next with
  | save key program =>
      cases encoded : program.encode with
      | error constant =>
          have refused : store.call (.save key program) =
              (.refused (.nonFinite constant), store) := by
            simp [MemoryStore.call, MemoryStore.save, encoded, StoreAnswer.ofChange]
          rw [refused]
          exact remembers
      | ok content =>
          have isText : content ∈ blobs key :=
            written key (by simp [savedTexts, encoded, Except.toOption])
          obtain ⟨saved, done, found⟩ :=
            remembers.find?_save (collisionFree key) isText encoded
          have called : store.call (.save key program) = (.done, saved) := by
            rw [MemoryStore.call, done, StoreAnswer.ofChange]
          rw [called]
          refine remembers.update (fun other differs => ?_) (fun gone => ?_) (fun stands => ?_)
          · rw [found, if_neg differs]
          · cases gone
          · cases stands
            exact ⟨content, isText, encoded, by rw [found, if_pos rfl]⟩
  | delete key =>
      cases found : store.texts.find? key with
      | none =>
          have refused : store.call (.delete key) = (.refused (.notFound key), store) := by
            simp [MemoryStore.call, MemoryStore.delete, found, StoreAnswer.ofChange]
          rw [refused]
          exact remembers
      | some text =>
          have called : store.call (.delete key) = (.done, ⟨store.texts.erase key⟩) := by
            simp [MemoryStore.call, MemoryStore.delete, found, StoreAnswer.ofChange]
          rw [called]
          refine remembers.update (fun other differs => ?_) (fun _ => ?_) (fun stands => ?_)
          · rw [Arena.find?_erase, if_neg differs]
          · rw [Arena.find?_erase, if_pos rfl]
          · cases stands
  | load key => exact remembers
  | loadOrEmpty key => exact remembers
  | loadExisting key => exact remembers
  | list => exact remembers

/-- After any calls the store remembers what was last written. -/
theorem remembers_after (collisionFree : ∀ key, CollisionFree (blobs key))
    (calls : List StoreCall) (written : ∀ key, savedTexts key calls ⊆ blobs key) :
    (after MemoryStore.call empty calls).Remembers blobs
      (StoreCall.kept (history MemoryStore.call empty calls)) := by
  induction calls using List.reverseRecOn with
  | nil => exact remembers_empty blobs
  | append_singleton calls last ih =>
      have split (key : String) :
          savedTexts key (calls ++ [last]) = savedTexts key calls ++ savedTexts key [last] :=
        List.flatMap_append
      have writtenBoth (key : String) := List.append_subset.mp (split key ▸ written key)
      have stepped := (ih fun key => (writtenBoth key).1).call collisionFree last
        fun key => (writtenBoth key).2
      rw [StoreCall.after_concat, StoreCall.history_concat]
      convert stepped using 1
      funext key
      exact StoreCall.kept_concat _ _ key

theorem Remembers.load (remembers : store.Remembers blobs kept) (key : String) :
    store.load key = .ok (kept key) := by
  cases stands : kept key with
  | none => simp [MemoryStore.load, remembers.absent stands]
  | some program =>
      obtain ⟨content, -, encoded, found⟩ := remembers.present stands
      simp [MemoryStore.load, found, MemoryText.of, Program.decode_of_encode (.inl encoded)]

theorem Remembers.isSome_iff (remembers : store.Remembers blobs kept) (key : String) :
    (store.texts.find? key).isSome = (kept key).isSome := by
  cases stands : kept key with
  | none =>
      rw [remembers.absent stands]
      rfl
  | some program =>
      obtain ⟨content, -, -, found⟩ := remembers.present stands
      rw [found]
      rfl

end MemoryStore

/-! ### Stores as maps -/

/-- The line of a listing for a program: its key, its digest and the size of its text. -/
def Summary.IsOf (summary : Summary) (program : Program) : Prop :=
  ∃ content, program.encode = .ok content ∧ summary.digest = Digest.ofText content ∧
    summary.size = content.utf8ByteSize

/-- A store answers as a map from keys to programs.  It is asked for the given keys and
stores the given texts. -/
structure AnswersAsMap {σ : Type} (call : σ → StoreCall → StoreAnswer × σ)
    (keys contents : List String) (store : σ) (kept : String → Option Program) : Prop where
  load : ∀ key ∈ keys, (call store (.load key)).1 = .found (kept key)
  save : ∀ key ∈ keys, ∀ program, (StoreCall.save key program).contents ⊆ contents →
    (call store (.save key program)).1 =
      .ofResult (fun _ => .done) (program.encode.mapError .nonFinite)
  delete : ∀ key ∈ keys, (call store (.delete key)).1 =
    if (kept key).isSome then .done else .refused (.notFound key)
  list : ∃ summaries, (call store .list).1 = .listed summaries ∧ Summary.Ascending summaries ∧
    ∀ summary, summary ∈ summaries ↔
      ∃ program, kept summary.key = some program ∧ summary.IsOf program
  /-- A call that is not done changes nothing that can be seen. -/
  unchanged : ∀ next, next.keys ⊆ keys → next.contents ⊆ contents → (call store next).1 ≠ .done →
    ∀ later, later.flatMap StoreCall.keys ⊆ keys → later.flatMap StoreCall.contents ⊆ contents →
      StoreCall.answers call (call store next).2 later = StoreCall.answers call store later

namespace MemoryStore

variable {store : MemoryStore} {blobs : String → List String} {kept : String → Option Program}

theorem call_of_not_done {next : StoreCall} (notDone : (store.call next).1 ≠ .done) :
    (store.call next).2 = store := by
  have change {result : Except StoreError MemoryStore}
      (notDone : (StoreAnswer.ofChange store result).1 ≠ .done) :
      (StoreAnswer.ofChange store result).2 = store := by
    cases result with
    | ok saved => exact absurd rfl notDone
    | error error => rfl
  cases next with
  | save key program => exact change notDone
  | delete key => exact change notDone
  | load key => rfl
  | loadOrEmpty key => rfl
  | loadExisting key => rfl
  | list => rfl

theorem Remembers.mem_list_iff (remembers : store.Remembers blobs kept) (summary : Summary) :
    summary ∈ store.list ↔ ∃ program, kept summary.key = some program ∧ summary.IsOf program := by
  simp only [MemoryStore.list, List.mem_mergeSort, List.mem_map, Prod.exists,
    Arena.mem_entries_iff]
  constructor
  · rintro ⟨key, text, found, rfl⟩
    cases stands : kept key with
    | none =>
        rw [remembers.absent stands] at found
        cases found
    | some program =>
        obtain ⟨content, -, encoded, isStored⟩ := remembers.present stands
        obtain rfl := Option.some.inj (found.symm.trans isStored)
        exact ⟨program, stands, content, encoded, rfl, rfl⟩
  · rintro ⟨program, stands, content, encoded, sameDigest, sameSize⟩
    obtain ⟨stored, -, isEncoded, found⟩ := remembers.present stands
    obtain rfl : content = stored := Except.ok.inj (encoded.symm.trans isEncoded)
    refine ⟨summary.key, .of content, found, ?_⟩
    rw [MemoryText.summary, MemoryText.of]
    cases summary
    simp only at sameDigest sameSize
    rw [sameDigest, sameSize]
    rfl

theorem list_ascending (store : MemoryStore) : Summary.Ascending store.list := by
  apply Summary.ascending_mergeSort
  rw [List.map_map]
  exact store.texts.keys_nodup

/-- A store in memory that remembers some programs answers as the map that holds them. -/
theorem Remembers.answersAsMap (remembers : store.Remembers blobs kept)
    (keys contents : List String) : AnswersAsMap MemoryStore.call keys contents store kept where
  load key _ := by rw [MemoryStore.call, remembers.load, StoreAnswer.ofResult]
  save key _ program _ := by
    cases encoded : program.encode with
    | error constant =>
        simp [MemoryStore.call, MemoryStore.save, encoded, StoreAnswer.ofChange,
          StoreAnswer.ofResult, Except.mapError]
    | ok content =>
        simp only [MemoryStore.call, MemoryStore.save, encoded]
        split <;> rfl
  delete key _ := by
    rw [← remembers.isSome_iff]
    cases found : store.texts.find? key <;>
      simp [MemoryStore.call, MemoryStore.delete, found, StoreAnswer.ofChange]
  list := ⟨store.list, rfl, store.list_ascending, remembers.mem_list_iff⟩
  unchanged next _ _ notDone later _ _ := by rw [call_of_not_done notDone]

end MemoryStore

/-! ### Databases -/

section Databases

variable {σ : Type} [RowKeeper σ]

/-- A database that agrees with a store in memory answers as the same map. -/
theorem AnswersAsMap.of_mirrors {store : MemoryStore} {rows : Arena StoredText} {holding : Holding σ}
    {keys contents : List String} {kept : String → Option Program}
    (asMap : AnswersAsMap MemoryStore.call keys contents store kept)
    (mirrors : store.Mirrors rows) (serves : holding.Serves keys contents rows) :
    AnswersAsMap Holding.call keys contents holding kept where
  load key known := by
    have agrees := call_agrees mirrors serves (.load key) (List.cons_subset.mpr ⟨known, by simp⟩)
      (List.nil_subset _)
    rw [agrees.1, asMap.load key known]
  save key known program written := by
    have agrees := call_agrees mirrors serves (.save key program)
      (List.cons_subset.mpr ⟨known, by simp⟩) written
    rw [agrees.1, asMap.save key known program written]
  delete key known := by
    have agrees := call_agrees mirrors serves (.delete key)
      (List.cons_subset.mpr ⟨known, by simp⟩) (List.nil_subset _)
    rw [agrees.1, asMap.delete key known]
  list := by
    have agrees := call_agrees mirrors serves .list (List.nil_subset _) (List.nil_subset _)
    rw [agrees.1]
    exact asMap.list
  unchanged next named written notDone later laterNamed laterWritten := by
    obtain ⟨same, -, rowsAfter, mirrored, served⟩ :=
      call_agrees mirrors serves next named written
    rw [same] at notDone
    have theirs := (answers_agree mirrors serves later laterNamed laterWritten).1
    have theirsAfter := (answers_agree mirrored served later laterNamed laterWritten).1
    calc StoreCall.answers Holding.call (holding.call next).2 later
        = StoreCall.answers MemoryStore.call (store.call next).2 later := theirsAfter
      _ = StoreCall.answers MemoryStore.call store later :=
          asMap.unchanged next named written notDone later laterNamed laterWritten
      _ = StoreCall.answers Holding.call holding later := theirs.symm

/-- Both sides still agree after any calls, and have given the same answers. -/
theorem after_agrees {store : MemoryStore} {rows : Arena StoredText} {holding : Holding σ}
    {keys contents : List String} (mirrors : store.Mirrors rows)
    (serves : holding.Serves keys contents rows) (calls : List StoreCall)
    (named : calls.flatMap StoreCall.keys ⊆ keys)
    (written : calls.flatMap StoreCall.contents ⊆ contents) :
    history Holding.call holding calls = history MemoryStore.call store calls ∧
      ∃ rowsAfter, (after MemoryStore.call store calls).Mirrors rowsAfter ∧
        (after Holding.call holding calls).Serves keys contents rowsAfter := by
  induction calls generalizing store rows holding with
  | nil => exact ⟨rfl, rows, mirrors, serves⟩
  | cons next later ih =>
      rw [List.flatMap_cons, List.append_subset] at named written
      obtain ⟨same, -, rowsNext, mirrored, served⟩ :=
        call_agrees mirrors serves next named.1 written.1
      obtain ⟨sameLater, rest⟩ := ih mirrored served named.2 written.2
      refine ⟨?_, rest⟩
      rw [history, history, same, sameLater]

end Databases

/-- After any calls, a store in memory that was empty and a database that was empty answer
as the map that holds, under each key, the program of the last save that was done, unless a
deletion was done after it.  No two texts that were saved under one key may have the same
digest.  A database that is a file is taken to follow the simple commands and not to fail. -/
theorem last_write_wins (calls : List StoreCall) (keys contents : List String)
    (named : calls.flatMap StoreCall.keys ⊆ keys)
    (written : calls.flatMap StoreCall.contents ⊆ contents)
    (collisionFree : ∀ key, CollisionFree (savedTexts key calls)) :
    AnswersAsMap MemoryStore.call keys contents (after MemoryStore.call .empty calls)
      (kept (history MemoryStore.call .empty calls)) ∧
    ∀ {σ : Type} [RowKeeper σ] (holding : Holding σ), holding.Holds keys contents Arena.empty →
      AnswersAsMap Holding.call keys contents (after Holding.call holding calls)
        (kept (history Holding.call holding calls)) := by
  have asMap := (MemoryStore.remembers_after collisionFree calls fun key => List.Subset.refl _)
    |>.answersAsMap keys contents
  refine ⟨asMap, fun holding holds => ?_⟩
  obtain ⟨same, rowsAfter, mirrored, served⟩ :=
    after_agrees MemoryStore.mirrors_empty holds.serves calls named written
  rw [same]
  exact asMap.of_mirrors mirrored served

/-- Calls that overwrite a program, store one twice, try to store one that has no text, and
delete what is there and what is not. -/
def rewritingCalls : List StoreCall :=
  let changed := Program.empty.setExpression "0" (some (.read "x"))
  [.save "b" Program.empty, .save "a" changed, .save "b" changed, .save "b" changed,
    .save "b" (Program.empty.setExpression "0" (some (.constant (0.0 / 0.0)))), .delete "a",
    .delete "a", .save "a" Program.empty, .list]

/-- The calls in memory, in a database that has just been opened, and in one that keeps its
rows in a list. -/
theorem rewritingCalls_answered :
    let contents := rewritingCalls.flatMap StoreCall.contents
    (∀ key, CollisionFree (savedTexts key rewritingCalls)) ∧
    AnswersAsMap MemoryStore.call ["a", "b"] contents
      (after MemoryStore.call .empty rewritingCalls)
      (kept (history MemoryStore.call .empty rewritingCalls)) ∧
    (∃ table, Database.new.connect = .ok table ∧
      AnswersAsMap Holding.call ["a", "b"] contents
        (after Holding.call (.own table : Holding) rewritingCalls)
        (kept (history Holding.call (.own table : Holding) rewritingCalls))) ∧
    AnswersAsMap Holding.call ["a", "b"] contents
      (after Holding.call (.shared (RowList.ofTable .empty)) rewritingCalls)
      (kept (history Holding.call (.shared (RowList.ofTable .empty)) rewritingCalls)) := by
  have apart : CollisionFree (rewritingCalls.flatMap StoreCall.contents) := by decide +kernel
  have collisionFree (key : String) : CollisionFree (savedTexts key rewritingCalls) := by
    have among := StoreCall.savedTexts_subset_contents key rewritingCalls
    exact fun first isFirst second isSecond => apart first (among isFirst) second (among isSecond)
  have named : rewritingCalls.flatMap StoreCall.keys ⊆ ["a", "b"] := by decide
  obtain ⟨inMemory, inDatabase⟩ :=
    last_write_wins rewritingCalls ["a", "b"] _ named (List.Subset.refl _) collisionFree
  exact ⟨collisionFree, inMemory, ⟨.empty, rfl, inDatabase (.own .empty) rfl⟩,
    inDatabase (.shared (RowList.ofTable .empty)) (RowList.holds (RowList.presents_ofTable .empty) _ _)⟩

end BlockStage

import BlockStage.Main
import BlockStage.Proofs.EditSession
import BlockStage.Proofs.RowList
import Mathlib.Data.List.Dedup

/-! # Storing a program between two edits changes nothing

On the command line every edit loads the program, changes it and stores it again, and a
text whose digest is already recorded is not written.  A person who edits that way sees
the same as one who makes the same edits in memory, one after the other, and passes over
those that fail: every command tells the same, and the program that is loaded after it is
the one in memory, entry by entry and counter by counter.
-/

namespace BlockStage

/-! ### Commands that edit -/

def EditResult.output : EditResult → String
  | .added statement slots => "stat " ++ statement ++ "\n" ++ Command.slotLines slots
  | .filled slots => Command.slotLines slots
  | .cleared => ""
  | .renamed => ""
  | .removed statement => "removed stat " ++ statement ++ "\n"

namespace EditCommand

def command : EditCommand → Command
  | .addStatement list kind => .addStatement list kind
  | .fillExpression id kind value name => .fillExpression id kind value name
  | .clearExpression id => .clearExpression id
  | .rename statement name => .rename statement name
  | .remove list index => .remove list index

theorem editing_map {α β σ : Type} [RowKeeper σ] (connection : Connection σ) (key : String)
    (edit : Edit α) (give : α → β) (print : β → String) :
    Command.editing connection key (give <$> edit) print =
      Command.editing connection key edit (print ∘ give) := by
  unfold Command.editing
  congr 1
  funext program
  cases outcome : edit program with
  | ok result after => simp only [map_of_ok outcome, Function.comp_apply]
  | error error after =>
      simp only [map_of_error outcome]
      cases error <;> rfl

/-- Every command that edits is carried out by one cycle of loading, editing and
storing. -/
theorem execute_command {σ : Type} [RowKeeper σ] (command : EditCommand)
    (readFile : String → Except FileError String) (connection : Connection σ) (key : String) :
    command.command.execute readFile connection key =
      Command.editing connection key command.edit EditResult.output := by
  cases command <;> rw [edit, editing_map] <;> rfl

end EditCommand

/-! ### Editing in memory and on the command line -/

/-- What a command that edits tells. -/
inductive EditReport where
  | printed (output : String)
  | failed (error : EditError)
  | crashed

/-- What a reply tells, unless it is none that an edit should lead to. -/
def EditReport.ofReply? {σ : Type} : Reply σ → Option EditReport
  | .done _ output => some (.printed output)
  | .failed _ (.edit error) => some (.failed error)
  | .crashed => some .crashed
  | _ => none

namespace Program

/-- What an edit of a program in memory tells, and the program afterwards.  A failed edit
is passed over. -/
def edited (program : Program) (command : EditCommand) : EditReport × Program :=
  match command.edit program with
  | .ok result after => (.printed result.output, after)
  | .error .counterExhausted _ => (.crashed, program)
  | .error error _ => (.failed error, program)

/-- What the edits of a program in memory tell, with the program after each. -/
def editedAll : Program → List EditCommand → List (EditReport × Program)
  | _, [] => []
  | program, command :: later =>
      program.edited command :: editedAll (program.edited command).2 later

/-- The text of the program after an edit, if the edit did not fail. -/
def textsAfter (program : Program) (command : EditCommand) : List String :=
  match command.edit program with
  | .ok _ after => after.encode.toOption.toList
  | .error _ _ => []

/-- The texts of the program after the edits that did not fail. -/
def textsAfterAll : Program → List EditCommand → List String
  | _, [] => []
  | program, command :: later =>
      program.textsAfter command ++ textsAfterAll (program.edited command).2 later

end Program

namespace Connection

variable {σ : Type} [RowKeeper σ]
variable (readFile : String → Except FileError String) (key : String)

/-- What a command tells, and the connection afterwards. -/
def edited (connection : Connection σ) (command : EditCommand) :
    Option EditReport × Connection σ :=
  let reply := command.command.execute readFile connection key
  (EditReport.ofReply? reply, CommandLine.connectionAfter connection reply)

/-- What commands tell, with the program that is loaded after each. -/
def editedAll : Connection σ → List EditCommand →
    List (Option EditReport × Except StoreError Program)
  | _, [] => []
  | connection, command :: later =>
      let (report, after) := connection.edited readFile key command
      (report, after.holding.loadOrEmpty key) :: editedAll after later

end Connection

/-! ### One cycle -/

/-- The rows keep a program under a key: as its text with its own digest, or, for the
empty program, by not having the key. -/
def KeptUnder (rows : Arena StoredText) (key : String) (program : Program) : Prop :=
  (rows.find? key = none ∧ program = Program.empty) ∨
    ∃ content, program.encode = .ok content ∧ rows.find? key = some (.of content)

/-- The text that rows keep under a key, if there is one. -/
def keptTexts (rows : Arena StoredText) (key : String) : List String :=
  ((rows.find? key).map StoredText.content).toList

/-- No two of the texts have the same digest. -/
def CollisionFree (contents : List String) : Prop :=
  ∀ first ∈ contents, ∀ second ∈ contents,
    Digest.ofText first = Digest.ofText second → first = second

/-- It is enough to take the digest of each text once. -/
theorem collisionFree_iff (contents : List String) :
    CollisionFree contents ↔ (contents.dedup.map Digest.ofText).Nodup := by
  rw [List.nodup_map_iff_inj_on contents.nodup_dedup]
  simp only [List.mem_dedup]
  rfl

instance (contents : List String) : Decidable (CollisionFree contents) :=
  decidable_of_iff _ (collisionFree_iff contents).symm

namespace KeptUnder

variable {rows : Arena StoredText} {key : String} {program after : Program}

theorem finite (kept : KeptUnder rows key program) : program.HasFiniteConstants := by
  rcases kept with ⟨-, rfl⟩ | ⟨content, encoded, -⟩
  · exact Program.hasFiniteConstants_empty
  · exact (Program.hasFiniteConstants_iff program).mpr
      ((Program.exists_encode_iff program).mp ⟨content, encoded⟩)

theorem load (kept : KeptUnder rows key program) :
    orEmpty (TableStore.load ⟨rows⟩ key) = .ok program := by
  rcases kept with ⟨absent, rfl⟩ | ⟨content, encoded, found⟩
  · simp [TableStore.load, absent, orEmpty, Except.map]
  · have decoded := Program.decode_of_encode (.inl encoded)
    simp [TableStore.load, found, StoredText.checked, StoredText.of, StoredText.toProgram, decoded,
      orEmpty, Except.map]

/-- A text that is stored is found, even if it is not written because its digest is already
there. -/
theorem find?_put {content : String} (kept : KeptUnder rows key program)
    (collisionFree : CollisionFree (content :: keptTexts rows key)) :
    (StoredText.putUnder rows key (.of content)).find? key = some (.of content) := by
  rcases kept with ⟨absent, -⟩ | ⟨old, -, found⟩
  · simp [StoredText.putUnder, absent, Arena.find?_insert]
  · by_cases recorded : Digest.ofText old = Digest.ofText content
    · have same : old = content :=
        collisionFree old (by simp [keptTexts, found, StoredText.of]) content (by simp) recorded
      simp [StoredText.putUnder, StoredText.of, found, same]
    · simp [StoredText.putUnder, StoredText.of, found, recorded, Arena.find?_insert]

end KeptUnder

section Cycles

variable {σ : Type} [RowKeeper σ]

theorem Connection.save_of_serves {connection : Connection σ} {keys contents : List String}
    {rows : Arena StoredText} {key content : String} {program : Program}
    (writable : connection.writable = true) (serves : connection.holding.Serves keys contents rows)
    (known : key ∈ keys) (written : content ∈ contents) (encoded : program.encode = .ok content) :
    ∃ after, connection.save key program = .ok after ∧ after.writable = true ∧
      after.holding.Serves keys contents (StoredText.putUnder rows key (.of content)) := by
  obtain ⟨held, saved, served⟩ := serves.save known written encoded
  have stored := StoredText.ofProgram_of_encode encoded
  refine ⟨{ connection with holding := held }, ?_, writable, served⟩
  simp only [Connection.save, stored, saved, writable, if_true]

/-- One cycle of loading, editing and storing tells what the edit in memory tells, and the
rows keep the program afterwards. -/
theorem edited_agrees {readFile : String → Except FileError String} {key : String}
    {connection : Connection σ} {program : Program} {rows : Arena StoredText}
    {contents blobs : List String} (command : EditCommand)
    (writable : connection.writable = true) (kept : KeptUnder rows key program)
    (serves : connection.holding.Serves [key] contents rows)
    (written : program.textsAfter command ⊆ contents) (involved : contents ⊆ blobs)
    (present : keptTexts rows key ⊆ blobs) (collisionFree : CollisionFree blobs) :
    ∃ after afterRows,
      connection.edited readFile key command = (some (program.edited command).1, after) ∧
      after.writable = true ∧ KeptUnder afterRows key (program.edited command).2 ∧
      after.holding.Serves [key] contents afterRows ∧ keptTexts afterRows key ⊆ blobs := by
  have loaded : connection.holding.loadOrEmpty key = .ok program := by
    rw [Holding.loadOrEmpty, serves.load List.mem_cons_self, kept.load]
  cases outcome : command.edit program with
  | error error partly =>
      refine ⟨connection, rows, ?_, writable, ?_, serves, present⟩
      · simp only [Connection.edited, command.execute_command, Command.editing, Command.onStore,
          loaded, outcome, Program.edited]
        cases error <;> rfl
      · have same : (program.edited command).2 = program := by
          simp only [Program.edited, outcome]
          cases error <;> rfl
        rwa [same]
  | ok result next =>
      obtain ⟨content, encoded⟩ : ∃ content, next.encode = .ok content := by
        rw [Program.exists_encode_iff, ← Program.hasFiniteConstants_iff]
        exact EditCommand.keepsFinite outcome kept.finite
      have isText : content ∈ contents := written (by
        simp [Program.textsAfter, outcome, encoded, Except.toOption])
      obtain ⟨after, saved, afterWritable, served⟩ :=
        Connection.save_of_serves writable serves List.mem_cons_self isText encoded
      have found : (StoredText.putUnder rows key (.of content)).find? key =
          some (.of content) := by
        apply kept.find?_put
        intro first isFirst second isSecond same
        have inBlobs : content :: keptTexts rows key ⊆ blobs :=
          List.cons_subset.mpr ⟨involved isText, present⟩
        exact collisionFree first (inBlobs isFirst) second (inBlobs isSecond) same
      have edited : program.edited command = (.printed result.output, next) := by
        simp only [Program.edited, outcome]
      rw [edited]
      refine ⟨after, _, ?_, afterWritable, .inr ⟨content, encoded, found⟩, served, ?_⟩
      · simp only [Connection.edited, command.execute_command, Command.editing, Command.onStore,
          Command.storing, loaded, outcome, saved]
        rfl
      · rw [keptTexts, found]
        exact List.cons_subset.mpr ⟨involved isText, List.nil_subset _⟩

/-! ### Many cycles -/

theorem editedAll_agrees {readFile : String → Except FileError String} {key : String}
    {connection : Connection σ} {program : Program} {rows : Arena StoredText}
    {contents blobs : List String} (commands : List EditCommand)
    (writable : connection.writable = true) (kept : KeptUnder rows key program)
    (serves : connection.holding.Serves [key] contents rows)
    (written : program.textsAfterAll commands ⊆ contents) (involved : contents ⊆ blobs)
    (present : keptTexts rows key ⊆ blobs) (collisionFree : CollisionFree blobs) :
    connection.editedAll readFile key commands =
      (program.editedAll commands).map fun step => (some step.1, .ok step.2) := by
  induction commands generalizing connection program rows with
  | nil => rfl
  | cons command later ih =>
      rw [Program.textsAfterAll, List.append_subset] at written
      obtain ⟨after, afterRows, edited, afterWritable, keptAfter, served, presentAfter⟩ :=
        @edited_agrees σ _ readFile key connection program rows contents blobs command writable kept
          serves written.1 involved present collisionFree
      have loaded : after.holding.loadOrEmpty key = .ok (program.edited command).2 := by
        rw [Holding.loadOrEmpty, served.load List.mem_cons_self, keptAfter.load]
      rw [Connection.editedAll, edited, Program.editedAll, List.map_cons]
      simp only [loaded]
      rw [ih afterWritable keptAfter served written.2 presentAfter]

/-- Commands that edit a stored program, one after the other, tell what the same edits tell
in memory, where failed edits are passed over, and after each command the program in memory
is the one that is loaded.  The key may be absent at first or hold any program that was
stored.  Of a file it is assumed that whatever keeps its rows follows the simple commands and
does not fail; of a table of its own nothing is assumed. -/
theorem stored_edits_eq_memory_edits (readFile : String → Except FileError String) (key : String)
    (connection : Connection σ) (rows : Arena StoredText) (program : Program)
    (commands : List EditCommand) (writable : connection.writable = true)
    (kept : KeptUnder rows key program)
    (holds : connection.holding.Holds [key] (program.textsAfterAll commands) rows)
    (collisionFree : CollisionFree (keptTexts rows key ++ program.textsAfterAll commands)) :
    connection.editedAll readFile key commands =
      (program.editedAll commands).map fun step => (some step.1, .ok step.2) :=
  editedAll_agrees commands writable kept holds.serves (fun _ => id) (List.subset_append_right _ _)
    (List.subset_append_left _ _) collisionFree

end Cycles

/-- Edits of which one leaves the text as it is, one fails, and two change it. -/
def firstEdits : List EditCommand :=
  [.addStatement entryList "assign", .clearExpression "7",
    .fillExpression "0" "const" (some (0.0 / 0.0)) none,
    .fillExpression "0" "const" (some 2.5) none]

/-- The first edits in a database that has just been opened, and in one that keeps its rows
in a list. -/
theorem firstEdits_stored :
    let inMemory := (Program.empty.editedAll firstEdits).map fun step => (some step.1, .ok step.2)
    CollisionFree (keptTexts Arena.empty defaultKey ++ Program.empty.textsAfterAll firstEdits) ∧
      Connection.editedAll (fun _ => .ok "") defaultKey
        ({ holding := .own .empty } : Connection) firstEdits = inMemory ∧
      Connection.editedAll (fun _ => .ok "") defaultKey { holding := .shared (RowList.ofTable .empty) }
        firstEdits = inMemory := by
  have collisionFree : CollisionFree
      (keptTexts Arena.empty defaultKey ++ Program.empty.textsAfterAll firstEdits) := by
    decide +kernel
  refine ⟨collisionFree, ?_, ?_⟩
  · exact stored_edits_eq_memory_edits _ defaultKey _ Arena.empty Program.empty firstEdits rfl
      (.inl ⟨rfl, rfl⟩) rfl collisionFree
  · exact stored_edits_eq_memory_edits _ defaultKey _ Arena.empty Program.empty firstEdits rfl
      (.inl ⟨rfl, rfl⟩) (RowList.holds (RowList.presents_ofTable .empty) _ _) collisionFree

end BlockStage

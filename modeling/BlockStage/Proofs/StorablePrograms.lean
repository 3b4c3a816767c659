import BlockStage.Proofs.EditPersistence
import BlockStage.Proofs.FloatKinds
import BlockStage.Proofs.ReadPrograms
import BlockStage.Store.Memory

/-! # What can be edited can be stored

A session starts from a new program or from a text, and goes on with edits that may be
refused or cut off.  No step of it brings in a constant without a written form: the
numbers of a text are finite, and an edit checks the value it is given.  So the program is
stored whenever somebody asks for it, and no command is ever refused for a constant,
whatever stands in the database and in the files it reads.
-/

namespace BlockStage

/-! ### Sessions -/

namespace EditCommand

theorem attempt_keepsFinite (command : EditCommand) {program : Program}
    (finite : program.HasFiniteConstants) : (command.attempt program).2.HasFiniteConstants := by
  have change := command.attempt_changes program
  unfold attempt at change ⊢
  cases outcome : command.edit program with
  | ok result after => exact keepsFinite outcome finite
  | error error after =>
      simp only [outcome] at change ⊢
      cases change with
      | refused _ _ => exact finite
      | cutOff _ grown => exact finite.of_expressions_eq grown.expressions

theorem attemptAll_keepsFinite (commands : List EditCommand) {program : Program}
    (finite : program.HasFiniteConstants) : (attemptAll program commands).2.HasFiniteConstants := by
  induction commands generalizing program with
  | nil => exact finite
  | cons command later ih => exact ih (command.attempt_keepsFinite finite)

end EditCommand

/-! ### Stores -/

/-- What a store gives is good, or it refuses for another reason than a constant. -/
structure Granted {α : Type} (good : α → Prop) (result : Except StoreError α) : Prop where
  isGood : ∀ value, result = .ok value → good value
  accepted : ∀ constant, result ≠ .error (.nonFinite constant)

namespace Granted

variable {α β : Type} {good : α → Prop} {better : β → Prop}

theorem ok {value : α} (isGood : good value) : Granted good (.ok value) := by
  refine ⟨fun other same => ?_, fun constant => nofun⟩
  cases same
  exact isGood

theorem error {error : StoreError} (other : ∀ constant, error ≠ .nonFinite constant) :
    Granted good (.error error) :=
  ⟨fun _ => nofun, fun constant same => other constant (Except.error.inj same)⟩

/-- A refusal stays one, whatever was asked for. -/
theorem of_error {error : StoreError} (granted : Granted good (.error error)) :
    Granted better (.error error) :=
  .error fun constant same => granted.accepted constant (by rw [same])

theorem map {function : α → β} {result : Except StoreError α} (granted : Granted good result)
    (isBetter : ∀ value, good value → better (function value)) :
    Granted better (result.map function) := by
  cases result with
  | ok value => exact .ok (isBetter value (granted.isGood value rfl))
  | error error => exact granted.of_error

theorem orUnusable (value : Option α) : Granted (fun _ => True) (RowKeeper.orUnusable value) := by
  cases value with
  | some given => exact .ok trivial
  | none => exact .error (by simp)

end Granted

/-- What a store keeps is read from a text, so its constants are finite. -/
theorem StoredText.granted_checked (stored : StoredText) (key : String) :
    Granted Program.HasFiniteConstants (stored.checked key) := by
  unfold checked toProgram
  dsimp only
  split
  · split
    · rename_i read
      exact .ok (Program.hasFiniteConstants_of_decode read)
    · exact .error (by simp)
  · exact .error (by simp)

theorem StoredText.granted_ofProgram {program : Program} (finite : program.HasFiniteConstants) :
    Granted (fun _ => True) (ofProgram program) := by
  obtain ⟨content, encoded⟩ := (Program.exists_encode_iff program).mpr
    ((Program.hasFiniteConstants_iff program).mp finite)
  rw [ofProgram, encoded]
  exact .ok trivial

/-- The program, if there is one, has finite constants. -/
def FiniteIfPresent (loaded : Option Program) : Prop :=
  ∀ program, loaded = some program → program.HasFiniteConstants

namespace Holding

variable {σ : Type} [RowKeeper σ]

theorem granted_load (holding : Holding σ) (key : String) :
    Granted FiniteIfPresent (holding.load key) := by
  have checked (stored : StoredText) :
      Granted FiniteIfPresent ((stored.checked key).map some) := by
    refine (stored.granted_checked key).map fun program finite other same => ?_
    cases same
    exact finite
  have absent : Granted FiniteIfPresent (.ok none) := .ok (by simp [FiniteIfPresent])
  cases holding with
  | own table =>
      rw [load, TableStore.load]
      split
      · exact checked _
      · exact absent
  | shared keeper =>
      rw [load, RowKeeper.load]
      unfold RowKeeper.programOf
      split
      · exact .error (by simp)
      · exact absent
      · split
        · exact checked _
        · exact .error (by simp)

theorem granted_loadOrEmpty (holding : Holding σ) (key : String) :
    Granted Program.HasFiniteConstants (holding.loadOrEmpty key) := by
  refine (holding.granted_load key).map fun loaded finite => ?_
  cases loaded with
  | some program => exact finite program rfl
  | none => exact Program.hasFiniteConstants_empty

theorem granted_loadExisting (holding : Holding σ) (key : String) :
    Granted Program.HasFiniteConstants (holding.loadExisting key) := by
  have granted := holding.granted_load key
  unfold loadExisting orNotFound
  split
  · rename_i program loaded
    exact .ok (granted.isGood (some program) loaded program rfl)
  · exact .error (by simp)
  · rename_i error loaded
    rw [loaded] at granted
    exact granted.of_error

theorem granted_save (holding : Holding σ) (key : String) {program : Program}
    (finite : program.HasFiniteConstants) : Granted (fun _ => True) (holding.save key program) := by
  have stored := StoredText.granted_ofProgram finite
  cases holding with
  | own table =>
      have saved : Granted (fun _ => True) (table.save key program) := by
        rw [TableStore.save]
        exact stored.map fun _ _ => trivial
      exact saved.map fun _ _ => trivial
  | shared keeper =>
      rw [save]
      split
      · rename_i text _
        have saved : Granted (fun _ => True) (RowKeeper.save keeper key text) := .orUnusable _
        exact saved.map fun _ _ => trivial
      · rename_i refused
        rw [refused] at stored
        exact stored.of_error

theorem granted_list (holding : Holding σ) : Granted (fun _ => True) holding.list := by
  cases holding with
  | own table => exact .ok trivial
  | shared keeper => exact .orUnusable _

theorem granted_delete (holding : Holding σ) (key : String) :
    Granted (fun _ => True) (holding.delete key).1 := by
  cases holding with
  | own table =>
      rw [delete, TableStore.delete]
      by_cases present : table.rows.contains key = true
      · rw [if_pos present]
        exact .ok trivial
      · rw [if_neg present]
        exact .error (by simp)
  | shared keeper =>
      rw [delete, RowKeeper.delete]
      cases RowKeeper.execute? keeper RowKeeper.deleteText [.ofText key] with
      | none => exact .error (by simp)
      | some after =>
          rw [RowKeeper.removed]
          split
          · exact .error (by simp)
          · exact .ok trivial

end Holding

namespace Connection

variable {σ : Type} [RowKeeper σ]

theorem granted_save (connection : Connection σ) (key : String) {program : Program}
    (finite : program.HasFiniteConstants) :
    Granted (fun _ => True) (connection.save key program) := by
  have stored := StoredText.granted_ofProgram finite
  have saved := connection.holding.granted_save key finite
  unfold save
  split
  · rename_i refused
    rw [refused] at stored
    exact stored.of_error
  · rename_i refused
    rw [refused] at saved
    exact saved.of_error
  · split
    · exact .ok trivial
    · exact .error (by simp)

theorem granted_delete (connection : Connection σ) (key : String) :
    Granted (fun _ => True) (connection.delete key).1 := by
  unfold delete
  split
  · exact connection.holding.granted_delete key
  · exact .error (by simp)

end Connection

/-! ### Commands -/

/-- The reply does not refuse a constant. -/
def Reply.TakesConstants {σ : Type} (reply : Reply σ) : Prop :=
  ∀ after constant, reply ≠ .failed after (.store (.nonFinite constant))

namespace Command

variable {σ : Type}

theorem takes_onStore {α : Type} {good : α → Prop} {connection : Connection σ}
    {result : Except StoreError α} {next : α → Reply σ} (granted : Granted good result)
    (goesOn : ∀ value, good value → (next value).TakesConstants) :
    (onStore connection result next).TakesConstants := by
  cases result with
  | ok value => exact goesOn value (granted.isGood value rfl)
  | error error =>
      intro after constant same
      cases same
      exact granted.accepted constant rfl

theorem takes_storing [RowKeeper σ] (connection : Connection σ) (key : String) {program : Program}
    (finite : program.HasFiniteConstants) (output : String) :
    (storing connection key program output).TakesConstants :=
  takes_onStore (connection.granted_save key finite) fun _ _ _ _ => nofun

theorem takes_editing [RowKeeper σ] (connection : Connection σ) (key : String) (command : EditCommand)
    (print : EditResult → String) :
    (editing connection key command.edit print).TakesConstants := by
  refine takes_onStore (connection.holding.granted_loadOrEmpty key) fun program finite => ?_
  cases outcome : command.edit program with
  | ok result after => exact takes_storing connection key (EditCommand.keepsFinite outcome finite) _
  | error error after => cases error <;> exact fun after constant => nofun

/-- A program with finite constants is written to a text with one entry per line. -/
theorem takes_encodeIndented {connection : Connection σ} {program : Program}
    (finite : program.HasFiniteConstants) {next : String → Reply σ}
    (goesOn : ∀ content, (next content).TakesConstants) :
    (match program.encodeIndented with
      | .ok content => next content
      | .error constant => .failed connection (.store (.nonFinite constant)) :
        Reply σ).TakesConstants := by
  obtain ⟨content, encoded⟩ := (Program.exists_encodeIndented_iff program).mpr
    ((Program.hasFiniteConstants_iff program).mp finite)
  rw [encoded]
  exact goesOn content

theorem hasFiniteConstants_sampleProgram : sampleProgram.HasFiniteConstants := by
  rw [Program.hasFiniteConstants_iff]
  decide +kernel

theorem takes_execute [RowKeeper σ] (readFile : String → Except FileError String)
    (connection : Connection σ) (key : String) (command : Command) :
    (command.execute readFile connection key).TakesConstants := by
  have edits (edit : EditCommand) :
      (edit.command.execute readFile connection key).TakesConstants := by
    rw [edit.execute_command]
    exact takes_editing connection key edit _
  have loads := connection.holding.granted_loadOrEmpty key
  cases command with
  | create => exact takes_storing connection key Program.hasFiniteConstants_empty _
  | display json =>
      refine takes_onStore loads fun program finite => ?_
      cases json with
      | true => exact takes_encodeIndented finite fun _ _ _ => nofun
      | false => exact fun after constant => nofun
  | importFrom file =>
      rw [execute]
      split
      · exact fun after constant => nofun
      · split
        · exact fun after constant => nofun
        · rename_i read
          exact takes_storing connection key (Program.hasFiniteConstants_of_decode read) _
  | exportTo file =>
      refine takes_onStore (connection.holding.granted_loadExisting key) fun program finite => ?_
      exact takes_encodeIndented finite fun _ _ _ => nofun
  | listAll =>
      refine takes_onStore connection.holding.granted_list fun summaries _ => ?_
      split <;> exact fun after constant => nofun
  | delete => exact takes_onStore (connection.granted_delete key) fun _ _ _ _ => nofun
  | addStatement list kind => exact edits (.addStatement list kind)
  | fillExpression id kind value name => exact edits (.fillExpression id kind value name)
  | clearExpression id => exact edits (.clearExpression id)
  | rename statement name => exact edits (.rename statement name)
  | remove list index => exact edits (.remove list index)
  | sample => exact takes_storing connection key hasFiniteConstants_sampleProgram _
  | run format settings => exact takes_onStore loads fun _ _ _ _ => nofun

end Command

/-! ### Everything that can be edited -/

/-- Every store takes the program, and what it writes is read back as the program. -/
structure Program.Storable (program : Program) : Prop where
  finite : program.HasFiniteConstants
  statementKeys : program.statements.keys.Nodup
  expressionKeys : program.expressions.keys.Nodup
  listKeys : program.lists.keys.Nodup
  readsBack : ∃ text, program.encode = .ok text ∧ decode text = .ok program
  readsBackIndented : ∃ text, program.encodeIndented = .ok text ∧ decode text = .ok program
  memory : ∀ (store : MemoryStore) key, ∃ after, store.save key program = .ok after
  database : ∀ {σ : Type} [RowKeeper σ] (holding : Holding σ) key constant,
    holding.save key program ≠ .error (.nonFinite constant)

theorem Program.HasFiniteConstants.storable {program : Program}
    (finite : program.HasFiniteConstants) : program.Storable := by
  have noneFirst := (hasFiniteConstants_iff program).mp finite
  obtain ⟨text, encoded⟩ := (exists_encode_iff program).mpr noneFirst
  obtain ⟨indented, encodedIndented⟩ := (exists_encodeIndented_iff program).mpr noneFirst
  refine ⟨finite, program.statements.keys_nodup, program.expressions.keys_nodup,
    program.lists.keys_nodup, ⟨text, encoded, decode_of_encode (.inl encoded)⟩,
    ⟨indented, encodedIndented, decode_of_encode (.inr encodedIndented)⟩, ?_, ?_⟩
  · intro store key
    simp only [MemoryStore.save, encoded]
    split <;> exact ⟨_, rfl⟩
  · intro σ _ holding key
    exact (holding.granted_save key finite).accepted

/-- A program that is new or was read from any text can be stored after every session of
edits, refused and cut off ones included, and is read back as it is.  On the command line no
import, no edit and no other command is refused for a constant, whatever the database
holds. -/
theorem read_or_edited_programs_are_storable {start : Program}
    (origin : start = .empty ∨ ∃ text, Program.decode text = .ok start)
    (commands : List EditCommand) :
    (EditCommand.attemptAll start commands).2.Storable ∧
    ∀ {σ : Type} [RowKeeper σ] readFile (connection : Connection σ) key (command : Command) after
      constant, command.execute readFile connection key ≠ .failed after (.store (.nonFinite constant)) := by
  have finite : start.HasFiniteConstants := by
    rcases origin with rfl | ⟨text, read⟩
    · exact Program.hasFiniteConstants_empty
    · exact Program.hasFiniteConstants_of_decode read
  exact ⟨(EditCommand.attemptAll_keepsFinite commands finite).storable,
    fun readFile connection key command => command.takes_execute readFile connection key⟩

/-- A text with its parts in an array, nodes in either form, an unknown member, a key that
comes twice and the largest numbers there are. -/
def crowdedText : String :=
  "[\x7b\x7d,\x7b\"0\":[\"const\",18446744073709551615]," ++
  "\"1\":\x7b\"value\":1.7976931348623157e308,\"_\":[],\"type\":\"const\"\x7d," ++
  "\"0\":[\"const\",-2e-999]\x7d,\x7b\"entry\":[]\x7d,3,18446744073709551615,0]"

/-- Edits of which three are refused, one is cut off and two are done. -/
def crowdedEdits : List EditCommand :=
  [.fillExpression "1" "const" (some Binary64.nan) none,
    .fillExpression "0" "const" (some (Binary64.infinity true)) none,
    .addStatement "entry" "if", .clearExpression "1",
    .fillExpression "0" "const" (some (Binary64.ofIndex true 1)) none, .remove "entry" 7]

/-- The text is read, and what the edits leave of it is stored. -/
theorem crowdedText_storable :
    ∃ start, Program.decode crowdedText = .ok start ∧
      (EditCommand.attemptAll start crowdedEdits).2.Storable := by
  have accepted : (Program.decode crowdedText).isOk = true := by decide +kernel
  cases read : Program.decode crowdedText with
  | error fault =>
      rw [read] at accepted
      cases accepted
  | ok start =>
      exact ⟨start, rfl, (read_or_edited_programs_are_storable (.inr ⟨_, read⟩) crowdedEdits).1⟩

end BlockStage

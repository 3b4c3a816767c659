import BlockStage.Proofs.SavedRows

/-! # What a command does to the rows of a database

A command works on one key.  It stores at most one program, and only after everything that
can fail has gone well: reading a file, loading, editing, writing the program as a text.  So
a command that fails leaves every row as it was, one that is cut off in the middle of an
edit included, and no command touches the row of another key.  The commands that show, list,
export and run do not even touch the connection.
-/

namespace BlockStage

/-! ### Databases with rows -/

namespace Holding

variable {σ : Type} [RowKeeper σ] {holding after : Holding σ}

/-- A removal that fails leaves what is held, unless the command for it was done and has
removed nothing. -/
theorem delete_error_cases {key : String} {error : StoreError}
    (failed : holding.delete key = (.error error, after)) :
    after = holding ∨ ∃ keeper changed, holding = .shared keeper ∧ after = .shared changed ∧
      RowKeeper.execute? keeper RowKeeper.deleteText [.ofText key] = some changed ∧
      RowKeeper.changed changed = 0 := by
  cases holding with
  | own table =>
      rw [Holding.delete] at failed
      split at failed
      · cases failed
      · cases failed
        exact .inl rfl
  | shared keeper =>
      rw [Holding.delete, RowKeeper.delete] at failed
      cases removed : RowKeeper.execute? keeper RowKeeper.deleteText [.ofText key] with
      | none =>
          rw [removed] at failed
          cases failed
          exact .inl rfl
      | some changed =>
          rw [removed, RowKeeper.removed] at failed
          split at failed
          · rename_i nothing
            cases failed
            exact .inr ⟨keeper, changed, rfl, rfl, removed, nothing⟩
          · cases failed

variable {keys : List String} {rows : RowMap}

/-- A removal that succeeds takes the row away, and one that fails takes none. -/
theorem Shows.delete (shown : holding.Shows keys rows) {key : String}
    {result : Except StoreError Unit} (done : holding.delete key = (result, after)) :
    (result = .ok () ∧ rows (.ofText key) ≠ none ∧
        after.Shows keys (rows.without (.ofText key))) ∨
      ∃ error, result = .error error ∧ after.Shows keys rows := by
  cases holding with
  | own table =>
      obtain ⟨moment, found⟩ := shown.texts key
      rw [Holding.delete, TableStore.delete] at done
      by_cases present : table.rows.contains key = true
      · rw [if_pos present] at done
        cases done
        refine .inl ⟨rfl, ?_, shown.without key⟩
        simpa [found, Arena.contains, Option.isSome_iff_ne_none] using present
      · rw [if_neg present] at done
        cases done
        exact .inr ⟨_, rfl, shown⟩
  | shared keeper =>
      obtain ⟨shows, kept, follows, finds, shown, rfl⟩ := shown
      rw [Holding.delete, RowKeeper.delete] at done
      cases removed : RowKeeper.execute? keeper RowKeeper.deleteText [.ofText key] with
      | none =>
          rw [removed] at done
          cases done
          exact .inr ⟨_, rfl, shows, kept, follows, finds, shown, rfl⟩
      | some changed =>
          obtain ⟨shownAfter, counted⟩ := follows.execute?_deleteText shown removed
          have without := rowUnder_rowsWithout kept (.ofText key)
          rw [removed, RowKeeper.removed] at done
          by_cases nothing : RowKeeper.changed changed = 0
          · rw [if_pos nothing] at done
            cases done
            rw [RowMap.without_of_absent (counted.mp nothing)] at without
            exact .inr ⟨_, rfl, shows, _, follows, finds, shownAfter, without⟩
          · rw [if_neg nothing] at done
            cases done
            exact .inl ⟨rfl, fun absent => nothing (counted.mpr absent), shows, _, follows, finds,
              shownAfter, without⟩

end Holding

namespace Connection

variable {σ : Type} [RowKeeper σ] {connection after : Connection σ}

theorem save_eq_ok {key : String} {program : Program}
    (saved : connection.save key program = .ok after) :
    connection.holding.save key program = .ok after.holding := by
  unfold save at saved
  split at saved
  · cases saved
  · cases saved
  · rename_i held
    split at saved
    · cases saved
      exact held
    · cases saved

/-- A removal is one of what is held, unless nothing may be changed. -/
theorem delete_cases {key : String} {result : Except StoreError Unit}
    (done : connection.delete key = (result, after)) :
    (∃ held, connection.holding.delete key = (result, held) ∧
        after = { connection with holding := held }) ∨
      (result = .error .unusable ∧ after = connection) := by
  unfold delete at done
  split at done
  · cases done
    exact .inl ⟨_, rfl, rfl⟩
  · cases done
    exact .inr ⟨rfl, rfl⟩

theorem delete_rows {keys : List String} {rows : RowMap}
    (shown : connection.holding.Shows keys rows) {key : String}
    {result : Except StoreError Unit} (done : connection.delete key = (result, after)) :
    (result = .ok () ∧ rows (.ofText key) ≠ none ∧
        after.holding.Shows keys (rows.without (.ofText key))) ∨
      ∃ error, result = .error error ∧ after.holding.Shows keys rows := by
  rcases delete_cases done with ⟨held, removed, rfl⟩ | ⟨rfl, rfl⟩
  · exact shown.delete removed
  · exact .inr ⟨_, rfl, shown⟩

end Connection

/-! ### What commands lead to -/

namespace Command

/-- The commands that store and delete nothing. -/
def OnlyReads : Command → Prop
  | .display _ | .exportTo _ | .listAll | .run _ _ => True
  | _ => False

section Leading

variable {σ : Type} [RowKeeper σ]
variable (readFile : String → Except FileError String) (connection : Connection σ) (key : String)

/-- The program that a command stores. -/
inductive Makes : Command → Program → Prop where
  | create : Makes .create Program.empty
  | sample : Makes .sample sampleProgram
  | imported {file content : String} {program : Program} (read : readFile file = .ok content)
      (decoded : Program.decode content = .ok program) : Makes (.importFrom file) program
  | edited {edit : EditCommand} {before program : Program} {result : EditResult}
      (loaded : connection.holding.loadOrEmpty key = .ok before)
      (done : edit.edit before = .ok result program) : Makes edit.command program

/-- What a command can lead to. -/
inductive LeadsTo : Command → Reply σ → Prop where
  | shown {command : Command} {output : String} (onlyReads : command.OnlyReads) :
      LeadsTo command (.done connection output)
  | written {file content : String} : LeadsTo (.exportTo file) (.write file content)
  | played {program : Program} {format : SnapshotFormat} {settings : DriveSettings} :
      LeadsTo (.run format settings) (.play program format settings)
  | refused {command : Command} {error : CommandError} :
      LeadsTo command (.failed connection error)
  | crashed {command : Command} : LeadsTo command .crashed
  | stored {command : Command} {program : Program} {after : Connection σ} {output : String}
      (makes : Makes readFile connection key command program)
      (saved : connection.save key program = .ok after) : LeadsTo command (.done after output)
  | deleted {after : Connection σ} {output : String}
      (done : connection.delete key = (.ok (), after)) : LeadsTo .delete (.done after output)
  | notDeleted {after : Connection σ} {error : StoreError}
      (failed : connection.delete key = (.error error, after)) :
      LeadsTo .delete (.failed after (.store error))

variable {readFile connection key}

theorem leadsTo_onStore {α : Type} {command : Command} {result : Except StoreError α}
    {next : α → Reply σ}
    (goesOn : ∀ value, result = .ok value → LeadsTo readFile connection key command (next value)) :
    LeadsTo readFile connection key command (onStore connection result next) := by
  cases result with
  | ok value => exact goesOn value rfl
  | error error => exact .refused

theorem leadsTo_storing {command : Command} {program : Program} {output : String}
    (makes : Makes readFile connection key command program) :
    LeadsTo readFile connection key command (storing connection key program output) :=
  leadsTo_onStore fun _ saved => .stored makes saved

/-- An edit is stored when it is done, and only then. -/
theorem leadsTo_editing (edit : EditCommand) (print : EditResult → String) :
    LeadsTo readFile connection key edit.command
      (editing connection key edit.edit print) := by
  refine leadsTo_onStore fun before loaded => ?_
  cases outcome : edit.edit before with
  | ok result program => exact leadsTo_storing (.edited loaded outcome)
  | error error partly =>
      cases error with
      | counterExhausted => exact .crashed
      | _ => exact .refused

theorem leadsTo_execute (command : Command) :
    LeadsTo readFile connection key command (command.execute readFile connection key) := by
  have edits (edit : EditCommand) :
      LeadsTo readFile connection key edit.command
        (edit.command.execute readFile connection key) := by
    rw [edit.execute_command]
    exact leadsTo_editing edit _
  cases command with
  | create => exact leadsTo_storing .create
  | display json =>
      refine leadsTo_onStore fun program _ => ?_
      cases json with
      | false => exact .shown trivial
      | true =>
          cases program.encodeIndented with
          | ok content => exact .shown trivial
          | error constant => exact .refused
  | importFrom file =>
      rw [execute]
      split
      · exact .refused
      · split
        · exact .refused
        · rename_i read _ _ decoded
          exact leadsTo_storing (.imported read decoded)
  | exportTo file =>
      refine leadsTo_onStore fun program _ => ?_
      split
      · exact .written
      · exact .refused
  | listAll =>
      refine leadsTo_onStore fun summaries _ => ?_
      split
      · exact .shown trivial
      · exact .crashed
  | delete =>
      rw [execute]
      cases done : connection.delete key with
      | mk result after =>
          cases result with
          | ok _ => exact .deleted done
          | error error => exact .notDeleted done
  | addStatement list kind => exact edits (.addStatement list kind)
  | fillExpression id kind value name => exact edits (.fillExpression id kind value name)
  | clearExpression id => exact edits (.clearExpression id)
  | rename statement name => exact edits (.rename statement name)
  | remove list index => exact edits (.remove list index)
  | sample => exact leadsTo_storing .sample
  | run format settings => exact leadsTo_onStore fun program _ => .played

/-- What a command that is done makes of the rows, unless it only reads. -/
inductive Rewrites (readFile : String → Except FileError String) (connection : Connection σ)
    (key : String) (rows : RowMap) : Command → RowMap → Prop where
  | stored {command : Command} {program : Program} {content : String} {now : Datum}
      (makes : Makes readFile connection key command program)
      (encoded : program.encode = .ok content) :
      Rewrites readFile connection key rows command
        (rows.saved ((StoredText.of content).row key now))
  | deleted (present : rows (.ofText key) ≠ none) :
      Rewrites readFile connection key rows .delete (rows.without (.ofText key))

theorem Rewrites.elsewhere {rows rowsAfter : RowMap} {command : Command}
    (rewrites : Rewrites readFile connection key rows command rowsAfter) {other : Datum}
    (differs : other ≠ .ofText key) : rowsAfter other = rows other := by
  cases rewrites with
  | stored makes encoded => exact RowMap.saved_of_ne rows differs
  | deleted present => exact RowMap.without_of_ne rows differs

theorem Makes.not_onlyReads {command : Command} {program : Program}
    (makes : Makes readFile connection key command program) : ¬ command.OnlyReads := by
  cases makes with
  | create => exact id
  | sample => exact id
  | imported read decoded => exact id
  | @edited edit before program result loaded done => cases edit <;> exact id

end Leading

end Command

/-! ### What calls leave behind -/

namespace Workspace

section Settling

variable {σ : Type} {workspace : Workspace} {connection : Connection σ}

/-- The exit code tells that something went wrong. -/
def Settlement.Fails (settled : Settlement σ) : Prop :=
  ∃ report, settled.report = some report ∧ report.exitCode ≠ 0

theorem not_fails_of_zero {output errors : String} :
    ¬ (Settlement.mk (some ⟨0, output, errors⟩) workspace connection).Fails := by
  rintro ⟨report, same, nonzero⟩
  cases same
  exact nonzero rfl

theorem fails_of_failed (error : CommandError) :
    (Settlement.mk (some (.failed error)) workspace connection).Fails := by
  refine ⟨_, rfl, ?_⟩
  cases error <;> exact Nat.succ_ne_zero _

variable [RowKeeper σ]

/-- Carries out a command on a database that is open. -/
def carryOut (turns : Nat) (workspace : Workspace) (connection : Connection σ) (key : String)
    (command : Command) : Settlement σ :=
  workspace.settle turns connection (command.execute workspace.readText connection key)

/-- What a command leaves of the database and of the files, whatever keeps the rows.  Only a
removal can fail after its command was done, and then it has removed nothing. -/
structure Spares (workspace : Workspace) (connection : Connection σ) (key : String)
    (command : Command) (settled : Settlement σ) : Prop where
  reading : command.OnlyReads → settled.connection = connection
  failing : settled.Fails → settled.connection = connection ∨
    command = .delete ∧ ∃ keeper after, connection.holding = .shared keeper ∧
      settled.connection = { connection with holding := .shared after } ∧
      RowKeeper.execute? keeper RowKeeper.deleteText [.ofText key] = some after ∧
      RowKeeper.changed after = 0
  files : settled.workspace = workspace ∨ ∃ file content, command = .exportTo file ∧
    workspace.write file content = .ok (.kept settled.workspace)

/-- What a command leaves of the rows. -/
structure Leaves (workspace : Workspace) (connection : Connection σ) (key : String)
    (command : Command) (rows : RowMap) (settled : Settlement σ) (rowsAfter : RowMap) : Prop where
  shown : settled.connection.holding.Shows [] rowsAfter
  elsewhere : ∀ other, other ≠ .ofText key → rowsAfter other = rows other
  reading : command.OnlyReads → rowsAfter = rows
  failing : settled.Fails → rowsAfter = rows
  done : ¬ settled.Fails → ¬ command.OnlyReads →
    command.Rewrites workspace.readText connection key rows rowsAfter

variable {key : String} {command : Command} {rows : RowMap} {settled : Settlement σ}

/-! #### The database and the files -/

theorem Spares.unchanged (same : settled.connection = connection)
    (files : settled.workspace = workspace ∨ ∃ file content, command = .exportTo file ∧
      workspace.write file content = .ok (.kept settled.workspace)) :
    Spares workspace connection key command settled where
  reading _ := same
  failing _ := .inl same
  files := files

/-- Whatever a command leads to, settling it spares the database unless the command writes and
is done. -/
theorem spares_settle (turns : Nat) {reply : Reply σ}
    (leads : command.LeadsTo workspace.readText connection key reply) :
    Spares workspace connection key command (workspace.settle turns connection reply) := by
  cases leads with
  | shown onlyReads => exact .unchanged rfl (.inl rfl)
  | @written file content =>
      rw [settle]
      cases place : workspace.write file content with
      | error error => exact .unchanged rfl (.inl rfl)
      | ok written =>
          cases written with
          | sent device => exact .unchanged rfl (.inl rfl)
          | kept after => exact .unchanged rfl (.inr ⟨file, content, rfl, place⟩)
  | played => exact .unchanged rfl (.inl rfl)
  | refused => exact .unchanged rfl (.inl rfl)
  | crashed => exact .unchanged rfl (.inl rfl)
  | stored makes saved =>
      exact ⟨fun reads => absurd reads makes.not_onlyReads,
        fun fails => absurd fails not_fails_of_zero, .inl rfl⟩
  | deleted done => exact ⟨False.elim, fun fails => absurd fails not_fails_of_zero, .inl rfl⟩
  | notDeleted failed =>
      refine ⟨False.elim, fun _ => ?_, .inl rfl⟩
      rcases Connection.delete_cases failed with ⟨held, removed, rfl⟩ | ⟨-, rfl⟩
      · rcases Holding.delete_error_cases removed with rfl | ⟨keeper, changed, was, rfl, done⟩
        · exact .inl rfl
        · exact .inr ⟨rfl, keeper, changed, was, rfl, done⟩
      · exact .inl rfl

/-! #### The rows -/

theorem Leaves.unchanged (shown : connection.holding.Shows [] rows)
    (same : settled.connection = connection) (expected : command.OnlyReads ∨ settled.Fails) :
    Leaves workspace connection key command rows settled rows where
  shown := same ▸ shown
  elsewhere _ _ := rfl
  reading _ := rfl
  failing _ := rfl
  done succeeds writes := absurd expected (not_or.mpr ⟨writes, succeeds⟩)

theorem Leaves.rewritten {rowsAfter : RowMap}
    (shown : settled.connection.holding.Shows [] rowsAfter)
    (rewrites : command.Rewrites workspace.readText connection key rows rowsAfter)
    (writes : ¬ command.OnlyReads) (succeeds : ¬ settled.Fails) :
    Leaves workspace connection key command rows settled rowsAfter where
  shown := shown
  elsewhere _ differs := rewrites.elsewhere differs
  reading reads := absurd reads writes
  failing fails := absurd fails succeeds
  done _ _ := rewrites

/-- Whatever a command leads to, settling it leaves the other rows, and all rows unless the
command is done. -/
theorem leaves_settle (turns : Nat) (shown : connection.holding.Shows [] rows) {reply : Reply σ}
    (leads : command.LeadsTo workspace.readText connection key reply) :
    ∃ rowsAfter, Leaves workspace connection key command rows
      (workspace.settle turns connection reply) rowsAfter := by
  cases leads with
  | shown onlyReads => exact ⟨rows, .unchanged shown rfl (.inl onlyReads)⟩
  | @written file content =>
      refine ⟨rows, ?_⟩
      rw [settle]
      cases workspace.write file content with
      | error error => exact .unchanged shown rfl (.inl trivial)
      | ok written => cases written <;> exact .unchanged shown rfl (.inl trivial)
  | played => exact ⟨rows, .unchanged shown rfl (.inl trivial)⟩
  | refused => exact ⟨rows, .unchanged shown rfl (.inr (fails_of_failed _))⟩
  | crashed => exact ⟨rows, .unchanged shown rfl (.inr ⟨.crashed, rfl, Nat.succ_ne_zero _⟩)⟩
  | stored makes saved =>
      obtain ⟨content, now, encoded, shownAfter⟩ := shown.save (Connection.save_eq_ok saved)
      exact ⟨_, .rewritten shownAfter (.stored makes encoded) makes.not_onlyReads
        not_fails_of_zero⟩
  | deleted done =>
      rcases Connection.delete_rows shown done with ⟨-, present, shownAfter⟩ | ⟨error, same, -⟩
      · exact ⟨_, .rewritten shownAfter (.deleted present) id not_fails_of_zero⟩
      · cases same
  | notDeleted failed =>
      rcases Connection.delete_rows shown failed with ⟨same, -⟩ | ⟨error, -, shownAfter⟩
      · cases same
      -- The database has been asked to delete, so only the rows are known to be the same.
      · exact ⟨rows, shownAfter, fun _ _ => rfl, False.elim, fun _ => rfl,
          fun succeeds => absurd (fails_of_failed _) succeeds⟩

end Settling

end Workspace

/-- A command that only shows, lists, exports or runs leaves the very same database, and so
does one that fails or is given up in the middle, unless it was a removal that has removed
nothing.  In a database with some rows a command leaves the rows of other keys as they are,
and all rows if it only reads or fails; if it is done it has deleted the row, or stored the
program it was to make.  Only for the rows is a file taken to follow the simple commands.  A
call leaves its database as it is after the command. -/
theorem command_changes_its_row_or_nothing (turns : Nat) (workspace : Workspace) (key : String)
    (command : Command) :
    (∀ {σ : Type} [RowKeeper σ] (connection : Connection σ),
      let settled := workspace.carryOut turns connection key command
      workspace.Spares connection key command settled ∧
      ∀ rows, connection.holding.Shows [] rows →
        ∃ rowsAfter, workspace.Leaves connection key command rows settled rowsAfter) ∧
    ∀ (start : Workspace) (address : String) (connection : Connection)
      (site : Option (Site × Opening)),
      start.openDatabase address = (.ok ⟨connection, site⟩, workspace) →
      let settled := workspace.carryOut turns connection key command
      start.perform turns ⟨address, key, command⟩ =
        (settled.report, settled.workspace.closeDatabase ⟨connection, site⟩ settled.connection) := by
  constructor
  · intro σ _ connection
    have leads : command.LeadsTo workspace.readText connection key _ := command.leadsTo_execute
    exact ⟨Workspace.spares_settle turns leads,
      fun rows shown => Workspace.leaves_settle turns shown leads⟩
  · intro start address connection site opens
    rw [Workspace.perform, opens]
    rfl

/-- A program with room for one more list of statements, beside a row with no digest. -/
def tightTable : TableStore :=
  ⟨Arena.ofEntries
    [(defaultKey, .of "[\x7b\x7d,\x7b\x7d,\x7b\"entry\":[]\x7d,0,0,18446744073709551614]"),
      ("other", ⟨"", ""⟩)]⟩

def tightRows : RowList := .ofTable tightTable

/-- The second list of the new statement cannot be had. -/
def tightEdit {σ : Type} [RowKeeper σ] (holding : Holding σ) : Workspace.Settlement σ :=
  Workspace.empty.carryOut 0 ⟨holding, true⟩ defaultKey (.addStatement entryList "if")

/-- The edit is cut off when it has made one of the lists, and both rows stay, in a table and
in a list. -/
theorem tightEdit_leaves_rows :
    (∃ settled, tightEdit (.own tightTable : Holding) = settled ∧ settled.Fails ∧
      settled.connection = ⟨.own tightTable, true⟩) ∧
    ∃ settled, tightEdit (.shared tightRows) = settled ∧ settled.Fails ∧
      Workspace.empty.Leaves ⟨.shared tightRows, true⟩ defaultKey (.addStatement entryList "if")
        (rowUnder tightRows.rows) settled (rowUnder tightRows.rows) := by
  have fails {σ : Type} [RowKeeper σ] {holding : Holding σ}
      (crashed : (tightEdit holding).report.map Report.exitCode = some 101) :
      (tightEdit holding).Fails := by
    obtain ⟨report, reported, code⟩ := Option.map_eq_some_iff.mp crashed
    exact ⟨report, reported, by omega⟩
  obtain ⟨always, -⟩ := command_changes_its_row_or_nothing 0 Workspace.empty defaultKey
    (.addStatement entryList "if")
  constructor
  · have cutOff : (tightEdit (.own tightTable : Holding)).Fails := fails (by decide +kernel)
    refine ⟨_, rfl, cutOff, ?_⟩
    rcases (always ⟨.own tightTable, true⟩).1.failing cutOff with same | ⟨removal, -⟩
    · exact same
    · cases removal
  · have cutOff : (tightEdit (.shared tightRows)).Fails := fails (by decide +kernel)
    obtain ⟨rowsAfter, leaves⟩ := (always ⟨.shared tightRows, true⟩).2 _ (tightRows.shows [])
    obtain rfl := leaves.failing cutOff
    exact ⟨_, rfl, cutOff, leaves⟩

end BlockStage

import BlockStage.Proofs.EditPersistence

/-!
# What a save leaves in the table

A save compares digests and nothing else.  A row that records the digest of the new
text stays as it is, and any other row is replaced.  So the program that was saved is
the one that is loaded afterwards, unless somebody has altered the text behind the
digest of just this program: then the alteration stays, and loading refuses it.  The
rows of other keys are never touched.

Whoever alters a row may put bytes into it that are no text, and may add rows whose keys are
none, so the rows are taken here by the data that stand in their columns.
-/

namespace BlockStage

open Pages (Value)

namespace ProgramRow

def loaded (row : ProgramRow) : List Value := [row.content.value, row.digest.value]

/-- Under the digest of a text stands something else than the text. -/
def IsAltered (row : ProgramRow) (content : String) : Prop :=
  row.digest = .ofText (Digest.ofText content) ∧ row.content ≠ .ofText content

/-- Why a row is refused whose content does not have the recorded digest. -/
def refusal (row : ProgramRow) (key digest : String) : StoreError :=
  match row.content.text? with
  | some content => .integrity key digest (Digest.ofText content)
  | none => .unusable

end ProgramRow

theorem RowKeeper.execute?_of_save {σ : Type} [RowKeeper σ] {keeper after : σ} {key : String}
    {stored : StoredText} (saved : save keeper key stored = .ok after) :
    execute? keeper saveText [.ofText key, .ofText stored.content, .ofText stored.digest] =
      some after := by
  unfold save at saved
  cases done : execute? keeper saveText
      [.ofText key, .ofText stored.content, .ofText stored.digest] with
  | none =>
      rw [done] at saved
      cases saved
  | some changed =>
      rw [done] at saved
      cases saved
      rfl

/-! ### Databases -/

namespace Holding

variable {σ : Type} [RowKeeper σ]

/-- The rows of the table that a database holds: of its own table, or of a file that follows
the simple commands.  Looking for one of the keys does not fail. -/
def Shows (keys : List String) (rows : RowMap) : Holding σ → Prop
  | .own table => table.Presents rows
  | .shared keeper => ∃ shows kept, RowKeeper.Follows shows ∧ RowKeeper.Finds shows keys ∧
      shows keeper kept ∧ rowUnder kept = rows

variable {holding after : Holding σ} {keys : List String} {rows : RowMap}

theorem Shows.key_eq (shown : holding.Shows keys rows) {key : Datum} {row : ProgramRow}
    (found : rows key = some row) : row.key = key := by
  cases holding with
  | own table =>
      cases read : key.text? with
      | none =>
          rw [shown.others read] at found
          cases found
      | some text =>
          obtain rfl := Datum.eq_ofText_of_text? read
          obtain ⟨moment, stands⟩ := shown.texts text
          rw [stands] at found
          obtain ⟨stored, -, rfl⟩ := Option.map_eq_some_iff.mp found
          rfl
  | shared keeper =>
      obtain ⟨shows, kept, -, -, -, rfl⟩ := shown
      simpa [rowUnder] using List.find?_some found

theorem Shows.load (shown : holding.Shows keys rows) {key : String} (known : key ∈ keys) :
    holding.load key =
      RowKeeper.programOf key (some ((rows (.ofText key)).toList.map ProgramRow.loaded)) := by
  cases holding with
  | own table =>
      obtain ⟨moment, found⟩ := shown.texts key
      rw [Holding.load, TableStore.load, found]
      cases table.rows.find? key with
      | none => rfl
      | some stored => simp [RowKeeper.programOf, ProgramRow.loaded, StoredText.row]
  | shared keeper =>
      obtain ⟨shows, kept, follows, finds, shown, rfl⟩ := shown
      obtain ⟨answers, answered⟩ := Option.isSome_iff_exists.mp (finds shown key known)
      rw [Holding.load, RowKeeper.load, answered, follows.rows?_loadText shown answered]
      rfl

/-- A save that succeeds has a text to store, and stores it in a table or a file. -/
theorem save_cases {key : String} {program : Program} (saved : holding.save key program = .ok after) :
    ∃ content, program.encode = .ok content ∧
      ((∃ table, holding = .own table ∧
          after = .own ⟨StoredText.putUnder table.rows key (.of content)⟩) ∨
        ∃ keeper changed, holding = .shared keeper ∧ after = .shared changed ∧
          RowKeeper.save keeper key (.of content) = .ok changed) := by
  cases encoded : program.encode with
  | error constant =>
      rw [save_of_nonFinite encoded] at saved
      cases saved
  | ok content =>
      have stored := StoredText.ofProgram_of_encode encoded
      refine ⟨content, rfl, ?_⟩
      cases holding with
      | own table =>
          rw [Holding.save, TableStore.save, stored] at saved
          cases saved
          exact .inl ⟨table, rfl, rfl⟩
      | shared keeper =>
          simp only [Holding.save, stored] at saved
          cases done : RowKeeper.save keeper key (.of content) with
          | error error =>
              rw [done] at saved
              cases saved
          | ok changed =>
              rw [done] at saved
              cases saved
              exact .inr ⟨keeper, changed, rfl, rfl, done⟩

/-- A save that succeeds puts the text of the program under the key. -/
theorem Shows.save (shown : holding.Shows keys rows) {key : String} {program : Program}
    (saved : holding.save key program = .ok after) :
    ∃ content now, program.encode = .ok content ∧
      after.Shows keys (rows.saved ((StoredText.of content).row key now)) := by
  obtain ⟨content, encoded, ⟨table, rfl, rfl⟩ | ⟨keeper, changed, rfl, rfl, done⟩⟩ :=
    save_cases saved
  · exact ⟨content, .ofText "", encoded, shown.saved key (.of content) _⟩
  · obtain ⟨shows, kept, follows, finds, shown, rfl⟩ := shown
    obtain ⟨now, shownAfter⟩ := follows.execute?_saveText shown (RowKeeper.execute?_of_save done)
    refine ⟨content, now, encoded, shows, _, follows, finds, shownAfter, ?_⟩
    rw [rowUnder_rowsSaved]
    rfl

end Holding

namespace RowList

theorem shows (keeper : RowList) (keys : List String) :
    (Holding.shared keeper).Shows keys (rowUnder keeper.rows) :=
  ⟨Shows, keeper.rows, follows, (succeeds keys []).finds, rfl, rfl⟩

theorem exists_save (keeper : RowList) (key content : String) :
    ∃ after, RowKeeper.save keeper key (.of content) = .ok after := by
  have shown : Shows keeper keeper.rows := rfl
  obtain ⟨after, done⟩ := Option.isSome_iff_exists.mp
    ((succeeds [key] [content]).saves shown key List.mem_cons_self content List.mem_cons_self)
  exact ⟨after, congrArg RowKeeper.orUnusable done⟩

end RowList

/-! ### Loading what was saved -/

/-- The text that stands under a key, if one does. -/
def textsUnder (rows : RowMap) (key : String) : List String :=
  ((rows (.ofText key)).bind fun row => row.content.text?).toList

theorem programOf_row (key : String) (stored : StoredText) (moment : Datum) :
    RowKeeper.programOf key (some [(stored.row key moment).loaded]) =
      (stored.checked key).map some := by
  simp [RowKeeper.programOf, ProgramRow.loaded, StoredText.row]

theorem checked_of_encode {program : Program} {content : String} (key : String)
    (encoded : program.encode = .ok content) :
    (StoredText.of content).checked key = .ok program := by
  have decoded := Program.decode_of_encode (.inl encoded)
  simp [StoredText.checked, StoredText.of, StoredText.toProgram, decoded]

theorem checked_of_ne {content digest : String} (key : String)
    (differs : Digest.ofText content ≠ digest) :
    (StoredText.mk content digest).checked key =
      .error (.integrity key digest (Digest.ofText content)) := by
  simp only [StoredText.checked, differs, if_false]

/-- A text that does not have the recorded digest is refused, and so is anything that is
no text. -/
theorem programOf_altered {key digest : String} {row : ProgramRow}
    (recorded : row.digest = .ofText digest)
    (altered : ∀ content, row.content.text? = some content → Digest.ofText content ≠ digest) :
    RowKeeper.programOf key (some [row.loaded]) = .error (row.refusal key digest) := by
  unfold ProgramRow.refusal
  have seen : row.loaded.map RowKeeper.text? = [row.content.text?, some digest] := by
    simp [ProgramRow.loaded, recorded, Datum.text?]
  cases read : row.content.text? with
  | none => simp [RowKeeper.programOf, seen, read]
  | some content =>
      have refused := checked_of_ne key (altered content read)
      simp [RowKeeper.programOf, seen, read, refused, Except.map]

/-- Unless something else stood under the digest of the text, the text stands there once it
was saved. -/
theorem RowMap.saved_stands {rows : RowMap} {key content : String}
    (keyed : ∀ row, rows (.ofText key) = some row → row.key = .ofText key)
    (genuine : ∀ row, rows (.ofText key) = some row → ¬ row.IsAltered content) (now : Datum) :
    ∃ moment, rows.saved ((StoredText.of content).row key now) (.ofText key) =
      some ((StoredText.of content).row key moment) := by
  cases found : rows (.ofText key) with
  | none => exact ⟨now, by simp [RowMap.saved, found, StoredText.row]⟩
  | some row =>
      by_cases recorded : row.digest = .ofText (Digest.ofText content)
      · have unaltered : row.content = .ofText content := by
          by_contra differs
          exact genuine row found ⟨recorded, differs⟩
        have same : (StoredText.of content).row key row.moment = row := by
          rw [StoredText.row, ← keyed row found, StoredText.of, ← unaltered, ← recorded]
        refine ⟨row.moment, ?_⟩
        rw [same]
        simp [RowMap.saved, found, StoredText.row, StoredText.of, recorded]
      · exact ⟨now, by simp [RowMap.saved, found, StoredText.row, StoredText.of, recorded]⟩

/-- A program that was saved is the one that is loaded, and the rows of other keys are as
before.  Only where something else stood under the digest of just this program is the row
left as it was, and loading refuses it.  Of a file it is assumed that whatever keeps its rows
follows the simple commands and finds the key when it is asked to. -/
theorem saved_program_is_loaded {σ : Type} [RowKeeper σ] (holding after : Holding σ)
    (rows : RowMap) (key : String) (program : Program) (shown : holding.Shows [key] rows)
    (saved : holding.save key program = .ok after)
    (collisionFree :
      CollisionFree (program.encode.toOption.toList ++ textsUnder rows key)) :
    ∃ content rowsAfter, program.encode = .ok content ∧ after.Shows [key] rowsAfter ∧
      (∀ other, other ≠ .ofText key → rowsAfter other = rows other) ∧
      ((∀ row, rows (.ofText key) = some row → ¬ row.IsAltered content) →
        (∃ moment, rowsAfter (.ofText key) = some ((StoredText.of content).row key moment)) ∧
          after.load key = .ok (some program)) ∧
      ∀ row, rows (.ofText key) = some row → row.IsAltered content →
        rowsAfter (.ofText key) = some row ∧
          after.load key = .error (row.refusal key (Digest.ofText content)) := by
  obtain ⟨content, now, encoded, shownAfter⟩ := shown.save saved
  refine ⟨content, _, encoded, shownAfter, fun _ differs => RowMap.saved_of_ne rows differs, ?_, ?_⟩
  · intro genuine
    obtain ⟨moment, stands⟩ := RowMap.saved_stands (fun _ => shown.key_eq) genuine now
    refine ⟨⟨moment, stands⟩, ?_⟩
    rw [shownAfter.load List.mem_cons_self, stands, Option.toList_some, List.map_singleton,
      programOf_row, checked_of_encode key encoded]
    rfl
  · rintro row found ⟨recorded, altered⟩
    have stays : rows.saved ((StoredText.of content).row key now) (.ofText key) = some row := by
      simp [RowMap.saved, found, StoredText.row, StoredText.of, recorded]
    refine ⟨stays, ?_⟩
    rw [shownAfter.load List.mem_cons_self, stays, Option.toList_some, List.map_singleton]
    apply programOf_altered recorded
    intro other read same
    have isContent : other = content := by
      apply collisionFree other _ content _ same
      · simp [textsUnder, found, read]
      · simp [encoded, Except.toOption]
    exact altered (isContent ▸ Datum.eq_ofText_of_text? read)

/-- The text of the program that has only an empty entry list. -/
def emptyText : String :=
  "\x7b\"stats\":\x7b\x7d,\"exprs\":\x7b\x7d,\"statLists\":\x7b\"entry\":[]\x7d," ++
    "\"statCount\":0,\"exprCount\":0,\"statListCount\":0\x7d"

theorem encode_empty : Program.empty.encode = .ok emptyText := by
  decide +kernel

theorem ofText_emptyText_ne : Digest.ofText "" ≠ Digest.ofText emptyText := by
  decide +kernel

theorem collisionFree_emptyText : CollisionFree [emptyText, ""] := by
  intro first isFirst second isSecond same
  simp only [List.mem_cons, List.not_mem_nil, or_false] at isFirst isSecond
  rcases isFirst with rfl | rfl <;> rcases isSecond with rfl | rfl
  · rfl
  · exact absurd same.symm ofText_emptyText_ne
  · exact absurd same ofText_emptyText_ne
  · rfl

/-- Two rows that others have written: a text with its own digest that is no program, and
one with no digest at all. -/
def strayTable : TableStore :=
  ⟨Arena.ofEntries [(defaultKey, .of ""), ("other", ⟨"", ""⟩)]⟩

def strayRows : RowList := .ofTable strayTable

theorem rowUnder_strayRows :
    rowUnder strayRows.rows (.ofText defaultKey) =
      some ((StoredText.of "").row defaultKey RowList.moment) :=
  RowList.rowUnder_entries _ _

/-- Saving replaces the first of the rows and leaves the second, in a table and in a list. -/
theorem strayRows_replaced :
    (∃ after, (.own strayTable : Holding).save defaultKey Program.empty = .ok after ∧
      after.load defaultKey = .ok (some Program.empty)) ∧
    ∃ after rowsAfter, (Holding.shared strayRows).save defaultKey Program.empty = .ok after ∧
      after.load defaultKey = .ok (some Program.empty) ∧
      after.Shows [defaultKey] rowsAfter ∧
      rowsAfter (.ofText "other") = rowUnder strayRows.rows (.ofText "other") := by
  have collisionFree : CollisionFree (Program.empty.encode.toOption.toList ++
      textsUnder (rowUnder strayRows.rows) defaultKey) := by
    have texts : textsUnder (rowUnder strayRows.rows) defaultKey = [""] := by
      simp [textsUnder, rowUnder_strayRows, StoredText.row, StoredText.of]
    rw [encode_empty, texts]
    exact collisionFree_emptyText
  have genuine : ∀ content, Program.empty.encode = .ok content →
      ∀ row, rowUnder strayRows.rows (.ofText defaultKey) = some row → ¬ row.IsAltered content := by
    intro content encoded row found altered
    obtain rfl : emptyText = content := Except.ok.inj (encode_empty.symm.trans encoded)
    rw [rowUnder_strayRows] at found
    obtain rfl := Option.some.inj found
    exact ofText_emptyText_ne (Datum.ofText_injective altered.1)
  have stored := StoredText.ofProgram_of_encode encode_empty
  constructor
  · have saved : (.own strayTable : Holding).save defaultKey Program.empty =
        .ok (.own ⟨StoredText.putUnder strayTable.rows defaultKey (.of emptyText)⟩) := by
      rw [Holding.save, TableStore.save, stored]
      rfl
    obtain ⟨content, rowsAfter, encoded, -, -, replaced, -⟩ :=
      saved_program_is_loaded (.own strayTable) _ (rowUnder strayRows.rows) defaultKey
        Program.empty (RowList.presents_ofTable strayTable) saved collisionFree
    exact ⟨_, saved, (replaced (genuine content encoded)).2⟩
  · obtain ⟨after, saved⟩ := strayRows.exists_save defaultKey emptyText
    have held : (Holding.shared strayRows).save defaultKey Program.empty = .ok (.shared after) := by
      simp only [Holding.save, stored, saved]
      rfl
    obtain ⟨content, rowsAfter, encoded, shownAfter, elsewhere, replaced, -⟩ :=
      saved_program_is_loaded (.shared strayRows) _ (rowUnder strayRows.rows) defaultKey
        Program.empty (RowList.shows strayRows _) held collisionFree
    exact ⟨_, rowsAfter, held, (replaced (genuine content encoded)).2, shownAfter,
      elsewhere _ (by decide)⟩

/-- The row of the empty program, with its text taken away. -/
def emptiedTable : TableStore :=
  ⟨(Arena.empty.insert defaultKey (.of emptyText)).insert defaultKey
    ⟨"", Digest.ofText emptyText⟩⟩

/-- A text that others have emptied behind its digest stays empty when the program is saved
again, and loading refuses it. -/
theorem emptied_text_stays :
    ∃ stored after, TableStore.empty.save defaultKey Program.empty = .ok stored ∧
      let emptied := stored.tamper defaultKey (some "") none
      CollisionFree (Program.empty.encode.toOption.toList ++
        textsUnder (rowUnder (RowList.ofTable emptied).rows) defaultKey) ∧
      (.own emptied : Holding).save defaultKey Program.empty = .ok after ∧
      after.load defaultKey =
        .error (.integrity defaultKey (Digest.ofText emptyText) (Digest.ofText "")) := by
  have stored := StoredText.ofProgram_of_encode encode_empty
  have emptied : (⟨Arena.empty.insert defaultKey (.of emptyText)⟩ : TableStore).tamper defaultKey
      (some "") none = emptiedTable := by
    simp [TableStore.tamper, Arena.find?_insert, StoredText.of, emptiedTable]
  have found : emptiedTable.rows.find? defaultKey = some ⟨"", Digest.ofText emptyText⟩ := by
    simp [emptiedTable, Arena.find?_insert]
  refine ⟨⟨Arena.empty.insert defaultKey (.of emptyText)⟩, .own emptiedTable, ?_, ?_⟩
  · rw [TableStore.save, stored]
    rfl
  · simp only [emptied]
    refine ⟨?_, ?_, ?_⟩
    · have stands : rowUnder (RowList.ofTable emptiedTable).rows (.ofText defaultKey) =
          some ((StoredText.mk "" (Digest.ofText emptyText)).row defaultKey RowList.moment) := by
        rw [RowList.ofTable, RowList.rowUnder_entries]
        exact congrArg _ found
      have texts : textsUnder (rowUnder (RowList.ofTable emptiedTable).rows) defaultKey = [""] := by
        simp [textsUnder, stands, StoredText.row]
      rw [encode_empty, texts]
      exact collisionFree_emptyText
    · rw [Holding.save, TableStore.save, stored]
      simp [StoredText.putUnder, found, StoredText.of, Except.map]
    · simp only [Holding.load, TableStore.load, found,
        checked_of_ne defaultKey ofText_emptyText_ne]
      rfl

end BlockStage

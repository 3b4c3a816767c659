import BlockStage.Proofs.RowLaws
import BlockStage.Store.Holding
import Mathlib.Data.List.Nodup
import Mathlib.Data.Set.List

/-! # Databases that serve a table of programs

A database that nobody else writes to answers every command from a table of rows.  For a
table of its own this is how it is made.  For a file it is what the four commands of a
store are supposed to do, and `RowKeeper.Obeys` says this of each command by itself, for the
keys and the texts it is given.  Whatever keeps the rows of the file obeys if it follows the
simple commands and does not fail.
-/

namespace BlockStage

open Pages (Value)

/-! ### Listings -/

/-- The line of a listing for a stored text under a key. -/
def StoredText.summary (key : String) (stored : StoredText) : Summary where
  key
  digest := stored.digest
  size := stored.content.utf8ByteSize

/-- Each key of a listing stands before the next one, by its bytes. -/
def Summary.Ascending (summaries : List Summary) : Prop :=
  summaries.Pairwise fun first second => textBytes first.key < textBytes second.key

theorem Summary.Ascending.eq_of_perm {first second : List Summary} (firstAscends : Ascending first)
    (secondAscends : Ascending second) (same : first.Perm second) : first = second := by
  apply List.Perm.eq_of_pairwise _ firstAscends secondAscends same
  intro one other _ _ before behind
  exact absurd (List.lt_trans before behind) (List.lt_irrefl _)

/-- Sorting lines with different keys puts them in ascending order. -/
theorem Summary.ascending_mergeSort {summaries : List Summary}
    (distinct : (summaries.map Summary.key).Nodup) :
    Ascending (summaries.mergeSort fun first second => decide (first.key ≤ second.key)) := by
  have sorted : (summaries.mergeSort fun first second =>
      decide (first.key ≤ second.key)).Pairwise fun first second =>
        decide (first.key ≤ second.key) = true := by
    apply List.pairwise_mergeSort
    · intro first second third
      simp only [decide_eq_true_eq]
      exact String.le_trans
    · intro first second
      simp only [Bool.or_eq_true, decide_eq_true_eq]
      exact String.le_total _ _
  have apart : (summaries.mergeSort fun first second => decide (first.key ≤ second.key)).Pairwise
      fun first second => first.key ≠ second.key :=
    List.pairwise_map.mp ((List.mergeSort_perm _ _).map Summary.key |>.nodup_iff.mpr distinct)
  refine (sorted.and apart).imp ?_
  intro first second both
  rw [textBytes_lt_iff]
  exact lt_of_le_of_ne (of_decide_eq_true both.1) both.2

theorem StoredText.listing_ascending (texts : Arena StoredText) :
    Summary.Ascending (listing texts) := by
  apply Summary.ascending_mergeSort
  rw [List.map_map]
  exact texts.keys_nodup

theorem StoredText.listing_perm (texts : Arena StoredText) :
    (listing texts).Perm (texts.entries.map fun entry => entry.2.summary entry.1) :=
  List.mergeSort_perm _ _

/-! ### Texts in rows -/

@[simp]
theorem RowKeeper.text?_ofText (content : String) : text? (.ofText content) = some content := by
  change String.fromUTF8? content.toByteArray = some content
  unfold String.fromUTF8?
  rw [dif_pos content.isValidUTF8]
  rfl

theorem RowKeeper.eq_ofText_of_text? {value : Value} {content : String}
    (read : text? value = some content) : value = .ofText content := by
  cases value with
  | text bytes =>
      simp only [text?, String.fromUTF8?] at read
      split at read
      · cases read
        rfl
      · cases read
  | _ => cases read

namespace Datum

def text? (datum : Datum) : Option String := RowKeeper.text? datum.value

theorem value_injective : Function.Injective value := by
  intro first second same
  cases first <;> cases second <;> simp_all [value]

@[simp]
theorem text?_ofText (content : String) : (ofText content).text? = some content :=
  RowKeeper.text?_ofText content

theorem eq_ofText_of_text? {datum : Datum} {content : String}
    (read : datum.text? = some content) : datum = .ofText content :=
  value_injective (RowKeeper.eq_ofText_of_text? read)

theorem rank_ofText_lt {first second : String} (less : first < second) :
    (ofText first).rank < (ofText second).rank :=
  List.cons_lt_cons_iff.mpr (.inr ⟨rfl, (textBytes_lt_iff first second).mpr less⟩)

end Datum

theorem StoredText.ofProgram_of_encode {program : Program} {content : String}
    (encoded : program.encode = .ok content) : ofProgram program = .ok (.of content) := by
  rw [ofProgram, encoded]

def StoredText.row (key : String) (moment : Datum) (stored : StoredText) : ProgramRow :=
  ⟨.ofText key, .ofText stored.content, .ofText stored.digest, moment⟩

theorem StoredText.row_inj {key other : String} {moment later : Datum} {stored found : StoredText}
    (same : stored.row key moment = found.row other later) : key = other ∧ stored = found := by
  simp only [row, ProgramRow.mk.injEq, Datum.ofText_injective.eq_iff] at same
  cases stored
  cases found
  simp_all

theorem StoredText.find?_putUnder (rows : Arena StoredText) (key other : String)
    (stored : StoredText) :
    (putUnder rows key stored).find? other =
      if other = key ∧ (rows.find? key).all (fun old => old.digest ≠ stored.digest) then some stored
      else rows.find? other := by
  unfold putUnder
  cases found : rows.find? key with
  | none => simp [Arena.find?_insert]
  | some old => by_cases recorded : old.digest = stored.digest <;> simp [recorded, Arena.find?_insert]

/-- The rows of a table: under a text stands the text that is stored there, and under bytes
stands nothing.  A table does not record moments, so these may be any. -/
structure TableStore.Presents (table : TableStore) (rows : RowMap) : Prop where
  texts : ∀ key, ∃ moment, rows (.ofText key) = (table.rows.find? key).map (StoredText.row key moment)
  others : ∀ {key : Datum}, key.text? = none → rows key = none

namespace TableStore.Presents

variable {table : TableStore} {rows : RowMap}

theorem saved (presents : table.Presents rows) (key : String) (stored : StoredText)
    (now : Datum) :
    Presents ⟨StoredText.putUnder table.rows key stored⟩ (rows.saved (stored.row key now)) where
  texts other := by
    obtain ⟨moment, found⟩ := presents.texts other
    have sameKey : (stored.row key now).key = .ofText key := rfl
    have sameDigest : (stored.row key now).digest = .ofText stored.digest := rfl
    simp only [RowMap.saved, StoredText.find?_putUnder, found, sameKey, sameDigest,
      Datum.ofText_injective.eq_iff]
    by_cases here : other = key
    · subst here
      cases table.rows.find? other with
      | none => exact ⟨now, by simp⟩
      | some old =>
          by_cases recorded : old.digest = stored.digest
          · exact ⟨moment, by simp [StoredText.row, recorded]⟩
          · exact ⟨now, by simp [StoredText.row, recorded, Datum.ofText_injective.eq_iff]⟩
    · exact ⟨moment, by simp [here]⟩
  others := by
    intro other noText
    rw [RowMap.saved_of_ne]
    · exact presents.others noText
    · rintro rfl
      simp [StoredText.row] at noText

theorem without (presents : table.Presents rows) (key : String) :
    Presents ⟨table.rows.erase key⟩ (rows.without (.ofText key)) where
  texts other := by
    obtain ⟨moment, found⟩ := presents.texts other
    refine ⟨moment, ?_⟩
    simp only [RowMap.without, Arena.find?_erase, found, Datum.ofText_injective.eq_iff]
    split <;> rfl
  others := by
    intro other noText
    unfold RowMap.without
    split
    · rfl
    · exact presents.others noText

theorem find?_eq_some_iff {texts : Arena StoredText} {rows : List ProgramRow}
    (presents : Presents ⟨texts⟩ (rowUnder rows)) (keyed : (rows.map ProgramRow.key).Nodup)
    (key : String) (stored : StoredText) :
    texts.find? key = some stored ↔ ∃ moment, stored.row key moment ∈ rows := by
  obtain ⟨moment, found⟩ := presents.texts key
  constructor
  · intro isStored
    rw [isStored] at found
    exact ⟨moment, List.mem_of_find?_eq_some found⟩
  · rintro ⟨later, isRow⟩
    have under : rowUnder rows (.ofText key) = some (stored.row key later) :=
      (mem_iff_rowUnder keyed _).mp isRow
    rw [under] at found
    obtain ⟨old, isOld, same⟩ := Option.map_eq_some_iff.mp found.symm
    rw [isOld, (StoredText.row_inj same).2]

theorem exists_row {texts : Arena StoredText} {rows : List ProgramRow}
    (presents : Presents ⟨texts⟩ (rowUnder rows)) (keyed : (rows.map ProgramRow.key).Nodup)
    {row : ProgramRow} (isRow : row ∈ rows) :
    ∃ key moment, ∃ stored : StoredText, stored.row key moment = row := by
  have under := (mem_iff_rowUnder keyed row).mp isRow
  cases read : row.key.text? with
  | none =>
      rw [presents.others read] at under
      cases under
  | some key =>
      obtain ⟨moment, found⟩ := presents.texts key
      rw [← Datum.eq_ofText_of_text? read, under] at found
      obtain ⟨stored, -, same⟩ := Option.map_eq_some_iff.mp found.symm
      exact ⟨key, moment, stored, same⟩

end TableStore.Presents

/-! ### Files -/

namespace RowKeeper

def loadedRow (stored : StoredText) : List Value :=
  [.ofText stored.content, .ofText stored.digest]

def listedRow (entry : String × StoredText) : List Value :=
  [.ofText entry.1, .ofText entry.2.digest, .whole entry.2.content.utf8ByteSize]

variable {σ : Type} [RowKeeper σ]

/-- Every command of a store succeeds on the keepers that show some rows, and does with the
rows what it says.  Only the given keys are asked for, and only the given texts stored.
Texts are compared by their bytes. -/
structure Obeys (shows : σ → Arena StoredText → Prop) (keys contents : List String) :
    Prop where
  finds : ∀ {keeper rows}, shows keeper rows → ∀ key ∈ keys,
    rows? keeper loadText [.ofText key] (some 1) = some ((rows.find? key).toList.map loadedRow)
  lists : ∀ {keeper rows}, shows keeper rows → ∃ entries : List (String × StoredText),
    entries.Perm rows.entries ∧
      (entries.Pairwise fun first second => textBytes first.1 < textBytes second.1) ∧
      rows? keeper listText [] none = some (entries.map listedRow)
  puts : ∀ {keeper rows}, shows keeper rows → ∀ key ∈ keys, ∀ content ∈ contents, ∃ after,
    execute? keeper saveText [.ofText key, .ofText content, .ofText (Digest.ofText content)] =
        some after ∧
      shows after (StoredText.putUnder rows key (.of content))
  removes : ∀ {keeper rows}, shows keeper rows → ∀ key ∈ keys, ∃ after,
    execute? keeper deleteText [.ofText key] = some after ∧
      (changed after = 0 ↔ rows.find? key = none) ∧ shows after (rows.erase key)

theorem exists_entries {texts : Arena StoredText} {rows chosen : List ProgramRow}
    (presents : TableStore.Presents ⟨texts⟩ (rowUnder rows))
    (keyed : (rows.map ProgramRow.key).Nodup) (same : chosen.Perm rows)
    (ascends : chosen.Pairwise fun first second => first.key.rank ≤ second.key.rank) :
    ∃ entries : List (String × StoredText), entries.Perm texts.entries ∧
      (entries.Pairwise fun first second => textBytes first.1 < textBytes second.1) ∧
      (chosen.map fun row => [row.key.value, row.digest.value, .whole row.content.size]) =
        entries.map listedRow := by
  -- Each row is an entry with a moment.
  obtain ⟨stamped, rfl⟩ : ∃ stamped : List ((String × StoredText) × Datum),
      stamped.map (fun entry => entry.1.2.row entry.1.1 entry.2) = chosen := by
    rw [← Set.mem_range, Set.range_list_map]
    intro row isRow
    obtain ⟨key, moment, stored, rfl⟩ := presents.exists_row keyed (same.mem_iff.mp isRow)
    exact ⟨((key, stored), moment), rfl⟩
  have distinct : ((stamped.map Prod.fst).map Prod.fst).Nodup := by
    have keysDistinct := (same.map ProgramRow.key).nodup_iff.mpr keyed
    apply List.Nodup.of_map Datum.ofText
    rw [List.map_map] at keysDistinct
    rw [List.map_map, List.map_map]
    exact keysDistinct
  refine ⟨stamped.map Prod.fst, ?_, ?_, ?_⟩
  · apply (List.perm_ext_iff_of_nodup distinct.of_map texts.keys_nodup.of_map).mpr
    rintro ⟨key, stored⟩
    rw [Arena.mem_entries_iff, presents.find?_eq_some_iff keyed]
    simp only [List.mem_map, ← same.mem_iff]
    constructor
    · rintro ⟨⟨entry, moment⟩, isEntry, rfl⟩
      exact ⟨moment, _, isEntry, rfl⟩
    · rintro ⟨moment, ⟨entry, later⟩, isEntry, sameRow⟩
      obtain ⟨rfl, rfl⟩ := StoredText.row_inj sameRow
      exact ⟨_, isEntry, rfl⟩
  · rw [List.Nodup, List.pairwise_map, List.pairwise_map] at distinct
    rw [List.pairwise_map] at ascends ⊢
    refine (ascends.and distinct).imp ?_
    rintro first second ⟨before, apart⟩
    rw [textBytes_lt_iff]
    rcases lt_trichotomy first.1.1 second.1.1 with less | equal | greater
    · exact less
    · exact absurd equal apart
    · exact absurd (Datum.rank_ofText_lt greater) before
  · rw [List.map_map, List.map_map]
    rfl

/-- A keeper that follows the simple commands and does not fail obeys. -/
theorem Follows.obeys {shows : σ → List ProgramRow → Prop} {keys contents : List String}
    (follows : Follows shows) (succeeds : Succeeds shows keys contents) :
    Obeys (fun keeper texts => ∃ rows, shows keeper rows ∧
      TableStore.Presents ⟨texts⟩ (rowUnder rows)) keys contents where
  finds := by
    rintro keeper texts ⟨rows, shown, presents⟩ key known
    obtain ⟨answers, answered⟩ := Option.isSome_iff_exists.mp (succeeds.finds shown key known)
    obtain ⟨moment, found⟩ := presents.texts key
    rw [answered, follows.rows?_loadText shown answered, found]
    cases texts.find? key <;> rfl
  lists := by
    rintro keeper texts ⟨rows, shown, presents⟩
    obtain ⟨answers, answered⟩ := Option.isSome_iff_exists.mp (succeeds.lists shown)
    obtain ⟨chosen, same, ascends, rfl⟩ := follows.rows?_listText shown answered
    obtain ⟨entries, isEntries, sorted, listed⟩ :=
      exists_entries presents (follows.keyed shown) same ascends
    exact ⟨entries, isEntries, sorted, listed ▸ answered⟩
  puts := by
    rintro keeper texts ⟨rows, shown, presents⟩ key known content written
    obtain ⟨after, done⟩ :=
      Option.isSome_iff_exists.mp (succeeds.saves shown key known content written)
    obtain ⟨now, shownAfter⟩ := @follows.execute?_saveText _ _ _ _ _ _ shown key (.of content) done
    refine ⟨after, done, _, shownAfter, ?_⟩
    rw [rowUnder_rowsSaved]
    exact presents.saved key (.of content) now
  removes := by
    rintro keeper texts ⟨rows, shown, presents⟩ key known
    obtain ⟨after, done⟩ := Option.isSome_iff_exists.mp (succeeds.deletes shown key known)
    obtain ⟨shownAfter, counted⟩ := follows.execute?_deleteText shown done
    refine ⟨after, done, ?_, _, shownAfter, ?_⟩
    · obtain ⟨moment, found⟩ := presents.texts key
      rw [counted, found, Option.map_eq_none_iff]
    · rw [rowUnder_rowsWithout]
      exact presents.without key

@[simp]
theorem summary?_listedRow (entry : String × StoredText) :
    summary? (listedRow entry) = some (entry.2.summary entry.1) := by
  simp [summary?, listedRow, StoredText.summary]

variable {shows : σ → Arena StoredText → Prop} {keys contents : List String}
variable {keeper : σ} {rows : Arena StoredText}

theorem load_of_shows (obeys : Obeys shows keys contents) (shown : shows keeper rows)
    {key : String} (known : key ∈ keys) : load keeper key = TableStore.load ⟨rows⟩ key := by
  rw [load, TableStore.load, obeys.finds shown key known]
  cases rows.find? key with
  | none => rfl
  | some stored => simp [programOf, loadedRow]

theorem list_of_shows (obeys : Obeys shows keys contents) (shown : shows keeper rows) :
    list keeper = .ok (TableStore.list ⟨rows⟩) := by
  obtain ⟨entries, same, ascends, listed⟩ := obeys.lists shown
  have readable : (entries.map listedRow).mapM summary? =
      some (entries.map fun entry => entry.2.summary entry.1) := by
    clear same ascends listed
    induction entries with
    | nil => rfl
    | cons entry rest ih => simp [List.mapM_cons, ih]
  have sorted : (entries.map fun entry => entry.2.summary entry.1) =
      StoredText.listing rows := by
    apply Summary.Ascending.eq_of_perm
    · exact List.pairwise_map.mpr ascends
    · exact StoredText.listing_ascending rows
    · exact (same.map _).trans (StoredText.listing_perm rows).symm
  rw [list, listed, Option.bind_some, readable, sorted, orUnusable, TableStore.list]

end RowKeeper

/-! ### Databases -/

namespace Holding

variable {σ : Type} [RowKeeper σ]

/-- What a database holds serves a table: the table is its own, or it is a file on which
the commands of a store do what they say. -/
def Serves (keys contents : List String) (rows : Arena StoredText) : Holding σ → Prop
  | .own table => table.rows = rows
  | .shared keeper => ∃ shows, RowKeeper.Obeys shows keys contents ∧ shows keeper rows

/-- A database holds a table: the table is its own, or the rows of the table are those of a
file that follows the simple commands and does not fail for some keys and texts. -/
def Holds (keys contents : List String) (texts : Arena StoredText) : Holding σ → Prop
  | .own table => table.rows = texts
  | .shared keeper => ∃ shows rows, RowKeeper.Follows shows ∧
      RowKeeper.Succeeds shows keys contents ∧ shows keeper rows ∧
      TableStore.Presents ⟨texts⟩ (rowUnder rows)

variable {keys contents : List String} {rows : Arena StoredText} {holding : Holding σ}

theorem Holds.serves (holds : holding.Holds keys contents rows) :
    holding.Serves keys contents rows := by
  cases holding with
  | own table => exact holds
  | shared keeper =>
      obtain ⟨shows, kept, follows, succeeds, shown, presents⟩ := holds
      exact ⟨_, follows.obeys succeeds, kept, shown, presents⟩

theorem Serves.load (serves : holding.Serves keys contents rows) {key : String}
    (known : key ∈ keys) : holding.load key = TableStore.load ⟨rows⟩ key := by
  cases holding with
  | own table =>
      obtain rfl := serves
      rfl
  | shared keeper =>
      obtain ⟨shows, obeys, shown⟩ := serves
      rw [Holding.load]
      exact RowKeeper.load_of_shows obeys shown known

theorem Serves.list (serves : holding.Serves keys contents rows) :
    holding.list = .ok (TableStore.list ⟨rows⟩) := by
  cases holding with
  | own table =>
      obtain rfl := serves
      rfl
  | shared keeper =>
      obtain ⟨shows, obeys, shown⟩ := serves
      rw [Holding.list]
      exact RowKeeper.list_of_shows obeys shown

theorem Serves.save (serves : holding.Serves keys contents rows) {key content : String}
    {program : Program} (known : key ∈ keys) (written : content ∈ contents)
    (encoded : program.encode = .ok content) :
    ∃ after, holding.save key program = .ok after ∧
      after.Serves keys contents (StoredText.putUnder rows key (.of content)) := by
  have stored := StoredText.ofProgram_of_encode encoded
  cases holding with
  | own table =>
      obtain rfl := serves
      refine ⟨.own ⟨StoredText.putUnder table.rows key (.of content)⟩, ?_, rfl⟩
      rw [Holding.save, TableStore.save, stored]
      rfl
  | shared keeper =>
      obtain ⟨shows, obeys, shown⟩ := serves
      obtain ⟨after, put, shownAfter⟩ := obeys.puts shown key known content written
      refine ⟨.shared after, ?_, shows, obeys, shownAfter⟩
      have saved : RowKeeper.save keeper key (.of content) = .ok after := by
        rw [RowKeeper.save, StoredText.of, put, RowKeeper.orUnusable]
      simp only [Holding.save, stored, saved]
      rfl

theorem save_of_nonFinite {key : String} {program : Program} {constant : NonFiniteConstant}
    (refused : program.encode = .error constant) :
    holding.save key program = .error (.nonFinite constant) := by
  cases holding <;> simp [Holding.save, TableStore.save, StoredText.ofProgram, refused, Except.map]

theorem Serves.delete (serves : holding.Serves keys contents rows) {key : String}
    (known : key ∈ keys) :
    ∃ after, holding.delete key =
        (if rows.contains key then .ok () else .error (.notFound key), after) ∧
      after.Serves keys contents (rows.erase key) := by
  cases holding with
  | own table =>
      obtain rfl := serves
      rw [Holding.delete, TableStore.delete]
      by_cases present : table.rows.contains key = true
      · exact ⟨.own ⟨table.rows.erase key⟩, by simp [present], rfl⟩
      · have absent : table.rows.find? key = none := by simpa [Arena.contains] using present
        exact ⟨.own table, by simp [present], (Arena.erase_of_absent absent).symm⟩
  | shared keeper =>
      obtain ⟨shows, obeys, shown⟩ := serves
      obtain ⟨after, removed, counted, shownAfter⟩ := obeys.removes shown key known
      refine ⟨.shared after, ?_, shows, obeys, shownAfter⟩
      rw [Holding.delete, RowKeeper.delete, removed, RowKeeper.removed]
      by_cases absent : rows.find? key = none
      · simp [Arena.contains, absent, counted.mpr absent]
      · have changed : RowKeeper.changed after ≠ 0 := fun none => absent (counted.mp none)
        have present : rows.contains key = true := by
          simpa [Arena.contains, Option.isSome_iff_ne_none] using absent
        simp [present, changed]

end Holding

end BlockStage

import BlockStage.Proofs.ServedRows

/-!
# Rows in a list

The plainest keeper of rows has them in a list and does with the list what each simple command
means.  It knows no other commands.
-/

namespace BlockStage

open Pages (Value)

theorem keyed_rowsSaved {rows : List ProgramRow} (keyed : (rows.map ProgramRow.key).Nodup)
    (new : ProgramRow) : ((rowsSaved rows new).map ProgramRow.key).Nodup := by
  unfold rowsSaved
  cases under : rowUnder rows new.key with
  | none =>
      rw [List.map_append, List.map_singleton]
      exact (List.perm_append_singleton _ _).nodup_iff.mpr
        (List.nodup_cons.mpr ⟨rowUnder_eq_none_iff.mp under, keyed⟩)
  | some old =>
      by_cases recorded : old.digest = new.digest
      · simpa [recorded] using keyed
      · have sameKeys : (rows.map fun row => if row.key = new.key then new else row).map
            ProgramRow.key = rows.map ProgramRow.key := by
          rw [List.map_map]
          apply List.map_congr_left
          intro row _
          by_cases here : row.key = new.key <;> simp [here]
        simpa [recorded, sameKeys] using keyed

theorem keyed_rowsWithout {rows : List ProgramRow} (keyed : (rows.map ProgramRow.key).Nodup)
    (key : Datum) : ((rowsWithout rows key).map ProgramRow.key).Nodup :=
  keyed.sublist (List.filter_sublist.map _)

/-- The datum of a value that is a text or bytes. -/
def Datum.ofValue? : Value → Option Datum
  | .text bytes => some (.text bytes)
  | .blob bytes => some (.blob bytes)
  | _ => none

theorem Datum.mapM_ofValue? (data : List Datum) :
    (data.map Datum.value).mapM Datum.ofValue? = some data := by
  induction data with
  | nil => rfl
  | cons datum rest ih =>
      cases datum <;> simp [List.mapM_cons, ih, Datum.ofValue?, Datum.value]

/-- Rows ascending by a column, if they are to be in order. -/
def sortedRows (order : Option TableColumn) (rows : List ProgramRow) : List ProgramRow :=
  match order with
  | none => rows
  | some column => rows.mergeSort fun first second =>
      decide ((first.datum column).rank ≤ (second.datum column).rank)

theorem sortedRows_perm (order : Option TableColumn) (rows : List ProgramRow) :
    (sortedRows order rows).Perm rows := by
  cases order with
  | none => exact List.Perm.refl rows
  | some column => exact List.mergeSort_perm _ _

theorem sortedRows_ascending (rows : List ProgramRow) {order : Option TableColumn}
    {column : TableColumn} (asked : column ∈ order) :
    (sortedRows order rows).Pairwise fun first second =>
      (first.datum column).rank ≤ (second.datum column).rank := by
  obtain rfl : order = some column := asked
  have sorted : (sortedRows (some column) rows).Pairwise fun first second =>
      decide ((first.datum column).rank ≤ (second.datum column).rank) = true := by
    apply List.pairwise_mergeSort
    · intro first second third
      simp only [decide_eq_true_eq]
      exact List.le_trans
    · intro first second
      simp only [Bool.or_eq_true, decide_eq_true_eq]
      exact List.le_total _ _
  exact sorted.imp of_decide_eq_true

/-- Rows with different keys, and how many of them the last command has changed. -/
structure RowList where
  rows : List ProgramRow
  keyed : (rows.map ProgramRow.key).Nodup
  changed : Nat := 0

namespace RowList

def moment : Datum := .ofText "1970-01-01 00:00:00"

def ofTable (table : TableStore) : RowList where
  rows := table.rows.entries.map fun entry => entry.2.row entry.1 moment
  keyed := by
    have keys := table.rows.keys_nodup.map Datum.ofText_injective
    rw [List.map_map] at keys ⊢
    exact keys

def select (keeper : RowList) (parameters : List Datum) (outputs : List Output)
    (condition : Option Condition) (order : Option TableColumn) : List (List Value) :=
  (sortedRows order (fulfilling moment parameters condition keeper.rows)).map fun row =>
    outputs.map (Output.value { now := moment, parameters, row := some row })

/-- Takes rows in place of the present ones, if their keys differ. -/
def ofChange? (change : List ProgramRow × Nat) : Option RowList :=
  if keyed : (change.1.map ProgramRow.key).Nodup then some ⟨change.1, keyed, change.2⟩ else none

instance : RowKeeper RowList where
  rows? keeper text values most :=
    match SimpleCommand.ofText? text, values.mapM Datum.ofValue? with
    | some (.find outputs condition order), some parameters =>
        let all := keeper.select parameters outputs condition order
        some (most.elim all all.take)
    | _, _ => none
  execute? keeper text values := do
    let command ← SimpleCommand.ofText? text
    let parameters ← values.mapM Datum.ofValue?
    ofChange? (← command.change? moment parameters keeper.rows)
  changed keeper := keeper.changed

/-- What the list of rows shows. -/
def Shows (keeper : RowList) (rows : List ProgramRow) : Prop := keeper.rows = rows

theorem execute?_eq {keeper : RowList} {text : String} {command : SimpleCommand}
    (simple : SimpleCommand.ofText? text = some command) (parameters : List Datum) :
    RowKeeper.execute? keeper text (parameters.map Datum.value) =
      (command.change? moment parameters keeper.rows).bind ofChange? := by
  change ((SimpleCommand.ofText? text).bind fun command =>
    ((parameters.map Datum.value).mapM Datum.ofValue?).bind fun parameters =>
      (command.change? moment parameters keeper.rows).bind ofChange?) = _
  rw [simple, Datum.mapM_ofValue?, Option.bind_some, Option.bind_some]

theorem rows?_eq {keeper : RowList} {text : String} {outputs : List Output}
    {condition : Option Condition} {order : Option TableColumn}
    (simple : SimpleCommand.ofText? text = some (.find outputs condition order))
    (parameters : List Datum) (most : Option Nat) :
    RowKeeper.rows? keeper text (parameters.map Datum.value) most =
      let all := keeper.select parameters outputs condition order
      some (most.elim all all.take) := by
  simp only [RowKeeper.rows?, simple, Datum.mapM_ofValue?]

theorem follows : RowKeeper.Follows Shows where
  keyed := by
    rintro keeper rows rfl
    exact keeper.keyed
  answers := by
    rintro keeper rows rfl text outputs condition order simple parameters most answers answered
    refine ⟨moment, keeper.select parameters outputs condition order, ?_, ?_⟩
    · exact ⟨_, sortedRows_perm _ _, fun column asked => sortedRows_ascending _ asked, rfl⟩
    · rw [rows?_eq simple] at answered
      exact (Option.some.inj answered).symm
  changes := by
    rintro keeper rows rfl text command simple parameters after done
    rw [execute?_eq simple] at done
    refine ⟨moment, ?_⟩
    intro rowsAfter count means
    rw [means, Option.bind_some, ofChange?] at done
    split at done
    · cases done
      exact ⟨rfl, rfl⟩
    · cases done

theorem succeeds (keys contents : List String) : RowKeeper.Succeeds Shows keys contents where
  finds := by
    intro keeper _ _ key _
    exact Option.isSome_of_eq_some
      (@rows?_eq keeper _ _ _ _ SimpleCommand.ofText?_loadText [.ofText key] (some 1))
  lists := by
    intro keeper _ _
    exact Option.isSome_of_eq_some
      (@rows?_eq keeper _ _ _ _ SimpleCommand.ofText?_listText [] none)
  saves := by
    rintro keeper rows rfl key _ content _
    obtain ⟨count, means⟩ := SimpleCommand.change?_save moment keeper.rows (.ofText key)
      (.ofText content) (.ofText (Digest.ofText content))
    have done := @execute?_eq keeper _ _ SimpleCommand.ofText?_saveText
      [.ofText key, .ofText content, .ofText (Digest.ofText content)]
    rw [means, Option.bind_some, ofChange?, dif_pos (keyed_rowsSaved keeper.keyed _)] at done
    exact Option.isSome_of_eq_some done
  deletes := by
    rintro keeper rows rfl key _
    have done := @execute?_eq keeper _ _ SimpleCommand.ofText?_deleteText [.ofText key]
    rw [SimpleCommand.change?_delete _ _ keeper.keyed, Option.bind_some, ofChange?,
      dif_pos (keyed_rowsWithout keeper.keyed _)] at done
    exact Option.isSome_of_eq_some done

/-- A file with such a list holds the table that its rows are of. -/
theorem holds {keeper : RowList} {texts : Arena StoredText}
    (presents : TableStore.Presents ⟨texts⟩ (rowUnder keeper.rows)) (keys contents : List String) :
    (Holding.shared keeper).Holds keys contents texts :=
  ⟨Shows, keeper.rows, follows, succeeds keys contents, rfl, presents⟩

theorem rowUnder_entries (entries : List (String × StoredText)) (key : String) :
    rowUnder (entries.map fun entry => entry.2.row entry.1 moment) (.ofText key) =
      (entries.lookup key).map (StoredText.row key moment) := by
  induction entries with
  | nil => rfl
  | cons entry rest ih =>
      rw [rowUnder] at ih
      by_cases here : key = entry.1
      · rw [Arena.lookup_cons_eq, if_pos here]
        simp [rowUnder, StoredText.row, here]
      · have apart : Datum.ofText entry.1 ≠ .ofText key := Datum.ofText_injective.ne (Ne.symm here)
        rw [Arena.lookup_cons_eq, if_neg here, ← ih]
        simp [rowUnder, StoredText.row, apart]

theorem presents_ofTable (table : TableStore) :
    table.Presents (rowUnder (ofTable table).rows) where
  texts key := ⟨moment, rowUnder_entries table.rows.entries key⟩
  others := by
    intro key noText
    apply rowUnder_eq_none_iff.mpr
    rw [ofTable, List.map_map]
    intro isKey
    obtain ⟨entry, -, rfl⟩ := List.mem_map.mp isKey
    simp [StoredText.row] at noText

end RowList

end BlockStage

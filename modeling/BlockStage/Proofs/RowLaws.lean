import BlockStage.Proofs.SimpleCommands

/-!
# Keepers that follow commands

A keeper of rows follows the simple commands if each of them does what it means: a query gives
a selection of the rows, and a command that changes rows leaves those that it means to leave
and counts those it has changed.  Which command a text stands for is a matter of the text
alone.  From this follows what the four commands of a store do.
-/

namespace BlockStage

open Pages (Value)

def rowUnder (rows : List ProgramRow) (key : Datum) : Option ProgramRow :=
  rows.find? fun row => row.key = key

theorem filter_key_eq {rows : List ProgramRow} (keyed : (rows.map ProgramRow.key).Nodup)
    (key : Datum) : (rows.filter fun row => row.key = key) = (rowUnder rows key).toList := by
  induction rows with
  | nil => rfl
  | cons row rest ih =>
      obtain ⟨fresh, keyedRest⟩ := List.nodup_cons.mp keyed
      by_cases here : row.key = key
      · have none : rest.filter (fun row => row.key = key) = [] := by
          apply List.filter_eq_nil_iff.mpr
          intro other isOther
          simp only [decide_eq_true_eq]
          rintro rfl
          exact fresh (here ▸ List.mem_map_of_mem isOther)
        simp [rowUnder, here, none]
      · simpa [rowUnder, here] using ih keyedRest

theorem mem_iff_rowUnder {rows : List ProgramRow} (keyed : (rows.map ProgramRow.key).Nodup)
    (row : ProgramRow) : row ∈ rows ↔ rowUnder rows row.key = some row := by
  have among := congrArg (row ∈ ·) (filter_key_eq keyed row.key)
  simpa using among

theorem rowUnder_concat (rows : List ProgramRow) (new : ProgramRow) (key : Datum) :
    rowUnder (rows ++ [new]) key =
      (rowUnder rows key).or (if new.key = key then some new else none) := by
  rw [rowUnder, List.find?_append, List.find?_singleton]
  simp only [decide_eq_true_eq]
  rfl

theorem rowUnder_eq_none_iff {rows : List ProgramRow} {key : Datum} :
    rowUnder rows key = none ↔ key ∉ rows.map ProgramRow.key := by
  simp [rowUnder]

/-- Exchanging rows for others with the same keys exchanges what is found. -/
theorem rowUnder_map {change : ProgramRow → ProgramRow}
    (sameKey : ∀ row, (change row).key = row.key) (rows : List ProgramRow) (key : Datum) :
    rowUnder (rows.map change) key = (rowUnder rows key).map change := by
  rw [rowUnder, List.find?_map]
  simp only [Function.comp_def, sameKey]
  rfl

/-- The rows after a row was saved: it is added, or takes the place of the one with its key
unless the digest is the same. -/
def rowsSaved (rows : List ProgramRow) (new : ProgramRow) : List ProgramRow :=
  match rowUnder rows new.key with
  | none => rows ++ [new]
  | some old =>
      if old.digest = new.digest then rows
      else rows.map fun row => if row.key = new.key then new else row

def rowsWithout (rows : List ProgramRow) (key : Datum) : List ProgramRow :=
  rows.filter fun row => row.key ≠ key

/-! ### Rows by their keys -/

/-- What stands under each key. -/
abbrev RowMap : Type := Datum → Option ProgramRow

namespace RowMap

/-- A row stands under its key, unless its digest is recorded there. -/
def saved (rows : RowMap) (new : ProgramRow) : RowMap := fun key =>
  if key = new.key ∧ (rows key).all (fun old => old.digest ≠ new.digest) then some new
  else rows key

def without (rows : RowMap) (gone : Datum) : RowMap := fun key =>
  if key = gone then none else rows key

theorem saved_of_ne (rows : RowMap) {new : ProgramRow} {key : Datum} (differs : key ≠ new.key) :
    rows.saved new key = rows key := by
  simp [saved, differs]

theorem without_of_ne (rows : RowMap) {gone key : Datum} (differs : key ≠ gone) :
    rows.without gone key = rows key := by
  simp [without, differs]

theorem without_of_absent {rows : RowMap} {gone : Datum} (absent : rows gone = none) :
    rows.without gone = rows := by
  funext key
  unfold without
  split
  · rename_i same
    rw [same, absent]
  · rfl

end RowMap

theorem rowUnder_rowsSaved (rows : List ProgramRow) (new : ProgramRow) :
    rowUnder (rowsSaved rows new) = RowMap.saved (rowUnder rows) new := by
  funext key
  have put (row : ProgramRow) : (if row.key = new.key then new else row).key = row.key := by
    split
    · rename_i same
      exact same.symm
    · rfl
  unfold rowsSaved
  by_cases here : key = new.key
  · subst here
    cases under : rowUnder rows new.key with
    | none => simp [RowMap.saved, rowUnder_concat, under]
    | some old =>
        have sameKey : old.key = new.key := by simpa [rowUnder] using List.find?_some under
        by_cases recorded : old.digest = new.digest
        · simp [RowMap.saved, under, recorded]
        · simp [RowMap.saved, under, recorded, rowUnder_map put, sameKey]
  · rw [RowMap.saved_of_ne _ here]
    cases under : rowUnder rows new.key with
    | none => simp [rowUnder_concat, Ne.symm here]
    | some old =>
        by_cases recorded : old.digest = new.digest
        · simp [recorded]
        · simp only [recorded, if_false, rowUnder_map put]
          cases found : rowUnder rows key with
          | none => rfl
          | some row =>
              have sameKey : row.key = key := by simpa [rowUnder] using List.find?_some found
              simp [sameKey, here]

theorem rowUnder_rowsWithout (rows : List ProgramRow) (gone : Datum) :
    rowUnder (rowsWithout rows gone) = RowMap.without (rowUnder rows) gone := by
  funext key
  rw [rowUnder, rowsWithout, List.find?_filter, RowMap.without]
  split
  · rename_i same
    simp [same]
  · rename_i differs
    congr 1
    funext row
    by_cases here : row.key = key <;> simp [here, differs]

namespace SimpleCommand

variable (now : Datum) (rows : List ProgramRow)

/-- What the command that stores a program means. -/
theorem change?_save (key content digest : Datum) :
    ∃ count, save.change? now [key, content, digest] rows =
      some (rowsSaved rows ⟨key, content, digest, now⟩, count) := by
  let new : ProgramRow := ⟨key, content, digest, now⟩
  have meaning : save.change? now [key, content, digest] rows =
      putRow? { now, parameters := [key, content, digest] } new
        [(.content, .excluded .content), (.digest, .excluded .digest), (.moment, .now)]
        (some (.unequal (.stored .digest) (.excluded .digest))) rows := rfl
  rw [meaning, putRow?, rowsSaved, rowUnder]
  cases under : rows.find? fun row => row.key = new.key with
  | none => exact ⟨1, rfl⟩
  | some old =>
      have sameKey : old.key = key := by simpa [new] using List.find?_some under
      by_cases recorded : old.digest = digest
      · exact ⟨0, by simp [Condition.holds, Term.datum?, ProgramRow.datum, recorded, new]⟩
      · exact ⟨1, by simp [Condition.holds, Term.datum?, ProgramRow.datum, recorded, new, assigned?,
          ProgramRow.set, sameKey]⟩

/-- What the command that removes a program means. -/
theorem change?_delete (keyed : (rows.map ProgramRow.key).Nodup) (key : Datum) :
    delete.change? now [key] rows =
      some (rowsWithout rows key, (rowUnder rows key).toList.length) := by
  have removed : fulfilling now [key] (some (.equal (.stored .key) (.parameter 1))) rows =
      rows.filter fun row => row.key = key := rfl
  rw [delete, change?, removed, filter_key_eq keyed, rowsWithout]
  congr 2
  apply List.filter_congr
  intro row isRow
  have among : row ∈ (rowUnder rows key).toList ↔ row.key = key := by
    rw [← filter_key_eq keyed, List.mem_filter]
    simp [isRow]
  simp [among]

end SimpleCommand

namespace RowKeeper

variable {σ : Type} [RowKeeper σ]

/-- A keeper that shows some rows carries out the simple commands as they are meant, if it
carries them out at all.  The first of the answers are given if no more are wanted. -/
structure Follows (shows : σ → List ProgramRow → Prop) : Prop where
  keyed : ∀ {keeper rows}, shows keeper rows → (rows.map ProgramRow.key).Nodup
  answers : ∀ {keeper rows}, shows keeper rows → ∀ {text outputs condition order},
    SimpleCommand.ofText? text = some (.find outputs condition order) →
    ∀ (parameters : List Datum) {most : Option Nat} {answers : List (List Value)},
      rows? keeper text (parameters.map Datum.value) most = some answers →
      ∃ now all, IsSelection now parameters rows outputs condition order all ∧
        answers = most.elim all all.take
  changes : ∀ {keeper rows}, shows keeper rows → ∀ {text command},
    SimpleCommand.ofText? text = some command →
    ∀ (parameters : List Datum) {after : σ},
      execute? keeper text (parameters.map Datum.value) = some after →
      ∃ now, ∀ {rowsAfter count},
        command.change? now parameters rows = some (rowsAfter, count) →
          shows after rowsAfter ∧ changed after = count

/-- Looking for one of some keys does not fail. -/
def Finds (shows : σ → List ProgramRow → Prop) (keys : List String) : Prop :=
  ∀ {keeper rows}, shows keeper rows → ∀ key ∈ keys,
    (rows? keeper loadText [.ofText key] (some 1)).isSome

/-- The commands of a store do not fail for some keys and texts. -/
structure Succeeds (shows : σ → List ProgramRow → Prop) (keys contents : List String) :
    Prop where
  finds : Finds shows keys
  lists : ∀ {keeper rows}, shows keeper rows → (rows? keeper listText [] none).isSome
  saves : ∀ {keeper rows}, shows keeper rows → ∀ key ∈ keys, ∀ content ∈ contents,
    (execute? keeper saveText
      [.ofText key, .ofText content, .ofText (Digest.ofText content)]).isSome
  deletes : ∀ {keeper rows}, shows keeper rows → ∀ key ∈ keys,
    (execute? keeper deleteText [.ofText key]).isSome

namespace Follows

variable {shows : σ → List ProgramRow → Prop} {keeper after : σ} {rows : List ProgramRow}

/-- Looking for a program gives the row of its key. -/
theorem rows?_loadText (follows : Follows shows) (shown : shows keeper rows) {key : String}
    {answers : List (List Value)}
    (answered : rows? keeper loadText [.ofText key] (some 1) = some answers) :
    answers = (rowUnder rows (.ofText key)).toList.map fun row =>
      [row.content.value, row.digest.value] := by
  obtain ⟨now, all, ⟨chosen, isChosen, -, rfl⟩, rfl⟩ :=
    follows.answers shown SimpleCommand.ofText?_loadText [.ofText key] answered
  have found : fulfilling now [.ofText key] (some (.equal (.stored .key) (.parameter 1))) rows =
      (rowUnder rows (.ofText key)).toList :=
    filter_key_eq (follows.keyed shown) (.ofText key)
  cases under : rowUnder rows (.ofText key) with
  | none =>
      rw [found, under] at isChosen
      rw [List.perm_nil.mp isChosen]
      rfl
  | some row =>
      rw [found, under] at isChosen
      rw [List.perm_singleton.mp isChosen]
      rfl

/-- Listing gives all rows, ascending by their keys. -/
theorem rows?_listText (follows : Follows shows) (shown : shows keeper rows)
    {answers : List (List Value)} (answered : rows? keeper listText [] none = some answers) :
    ∃ chosen : List ProgramRow, chosen.Perm rows ∧
      (chosen.Pairwise fun first second => first.key.rank ≤ second.key.rank) ∧
      answers = chosen.map fun row =>
        [row.key.value, row.digest.value, .whole row.content.size] := by
  obtain ⟨now, all, ⟨chosen, isChosen, ascends, rfl⟩, rfl⟩ :=
    follows.answers shown SimpleCommand.ofText?_listText [] answered
  have everything : fulfilling now [] none rows = rows := List.filter_eq_self.mpr fun _ _ => rfl
  exact ⟨chosen, everything ▸ isChosen, ascends .key rfl, rfl⟩

/-- Storing a text adds a row for a new key.  The row of an old key gets the text unless the
digest is already there. -/
theorem execute?_saveText (follows : Follows shows) (shown : shows keeper rows) {key : String}
    {stored : StoredText}
    (done : execute? keeper saveText
      [.ofText key, .ofText stored.content, .ofText stored.digest] = some after) :
    ∃ now, shows after (rowsSaved rows
      ⟨.ofText key, .ofText stored.content, .ofText stored.digest, now⟩) := by
  obtain ⟨now, leads⟩ := follows.changes shown SimpleCommand.ofText?_saveText
    [.ofText key, .ofText stored.content, .ofText stored.digest] done
  obtain ⟨count, means⟩ := SimpleCommand.change?_save now rows (.ofText key)
    (.ofText stored.content) (.ofText stored.digest)
  exact ⟨now, (leads means).1⟩

/-- Removing a program removes the row of its key, and counts it. -/
theorem execute?_deleteText (follows : Follows shows) (shown : shows keeper rows) {key : String}
    (done : execute? keeper deleteText [.ofText key] = some after) :
    shows after (rowsWithout rows (.ofText key)) ∧
      (changed after = 0 ↔ rowUnder rows (.ofText key) = none) := by
  obtain ⟨now, leads⟩ := follows.changes shown SimpleCommand.ofText?_deleteText [.ofText key] done
  obtain ⟨shownAfter, counted⟩ :=
    leads (SimpleCommand.change?_delete now rows (follows.keyed shown) (.ofText key))
  refine ⟨shownAfter, ?_⟩
  rw [counted]
  cases rowUnder rows (.ofText key) <;> simp

end Follows

end RowKeeper

end BlockStage

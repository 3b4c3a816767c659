import BlockStage.Proofs.LocalEdits
import BlockStage.Proofs.RunVocabulary
import BlockStage.Proofs.ShownNumber
import BlockStage.Proofs.TerminalLines

/-!
# Lines of text

As text, a snapshot is written with its words as they are.  Its numbers have no line break, and
neither have the identifiers that edits hand out.  But an assignment may be renamed to anything, and
a line break in the name of a variable is written as one.  So the output has a line break for each
rendered snapshot and one more for each that is in a shown name, every time the name is shown.
-/

namespace BlockStage

/-! ### The line breaks of a snapshot -/

namespace Terminal

theorem lineBreaks_countId (count : UInt64) : lineBreaks (countId count) = 0 := by
  rw [lineBreaks_eq_zero_iff]
  intro isBroken
  exact absurd (isDigit_of_mem_countId isBroken) (by decide)

theorem lineBreaks_shownNumber (value : Float) : lineBreaks (shownNumber value) = 0 := by
  rw [lineBreaks_eq_zero_iff]
  have magnitude (index : Nat) : '\n' ∉ Token.shownMagnitude index := by
    intro isBroken
    rcases (Token.shownMagnitude_signs index).1 '\n' isBroken with isDigit | isPoint
    · exact absurd isDigit (by decide)
    · exact absurd isPoint (by decide)
  have shown := shownAs_shownNumber value
  generalize (shownNumber value).toList = text at shown ⊢
  cases shown with
  | nan => decide
  | infinity negative => cases negative <;> decide
  | @finite negative index _ => cases negative <;> simp [signed, magnitude]

theorem lineBreaks_intercalate (texts : List String) :
    lineBreaks (String.intercalate " " texts) = lineBreaks (String.join texts) := by
  have space : lineBreaks " " = 0 := by decide
  induction texts with
  | nil => rfl
  | cons text texts ih =>
      cases texts with
      | nil => simp
      | cons next texts =>
          rw [String.intercalate_cons_cons, String.join_cons, lineBreaks_append, lineBreaks_append,
            lineBreaks_append, ih, space, Nat.add_zero]

end Terminal

namespace Snapshot

open Terminal

/-- The names of the variables that the snapshot shows. -/
def names (snapshot : Snapshot) : List String := snapshot.values.map Prod.fst

theorem lineBreaks_line (snapshot : Snapshot) :
    lineBreaks snapshot.line =
      lineBreaks snapshot.statement + lineBreaks (String.join snapshot.names) := by
  have values (pairs : List (String × Float)) :
      lineBreaks (String.join (pairs.map fun pair => pair.1 ++ "=" ++ shownNumber pair.2)) =
        lineBreaks (String.join (pairs.map Prod.fst)) := by
    have equals : lineBreaks "=" = 0 := by decide
    induction pairs with
    | nil => rfl
    | cons pair pairs ih =>
        simp only [List.map_cons, String.join_cons, lineBreaks_append, lineBreaks_shownNumber,
          equals, ih, Nat.add_zero]
  have opening : lineBreaks "[" = 0 := by decide
  have closing : lineBreaks "] " = 0 := by decide
  have sleeping : lineBreaks " | sleep " = 0 := by decide
  unfold line
  dsimp only
  split <;> simp only [lineBreaks_append, lineBreaks_intercalate, lineBreaks_shownNumber, values,
    opening, closing, sleeping, names, Nat.zero_add, Nat.add_zero]

theorem lineBreaks_linesText_text {snapshots : List Snapshot}
    (unbroken : ∀ snapshot ∈ snapshots, lineBreaks snapshot.statement = 0) :
    lineBreaks (linesText .text snapshots) =
      snapshots.length + lineBreaks (String.join (snapshots.flatMap names)) := by
  have joined : lineBreaks (String.join (snapshots.map SnapshotFormat.text.line)) =
      lineBreaks (String.join (snapshots.flatMap names)) := by
    induction snapshots with
    | nil => rfl
    | cons snapshot snapshots ih =>
        obtain ⟨first, others⟩ := List.forall_mem_cons.mp unbroken
        rw [List.map_cons, String.join_cons, lineBreaks_append, ih others, SnapshotFormat.line,
          lineBreaks_line, first, Nat.zero_add, List.flatMap_cons, String.join_append,
          lineBreaks_append]
  rw [lineBreaks_linesText_eq, joined]

end Snapshot

/-! ### The words that edits bring -/

namespace Arena

variable {α : Type} {arena after : Arena α} {id key : String} {value : α}

theorem of_find?_changedAt {change : α → α} {more : List (String × α)}
    (entries : after.entries = changedAt id change arena.entries ++ more)
    (found : after.find? key = some value) :
    arena.find? key = some value ∨
      (∃ old, arena.find? key = some old ∧ value = change old) ∨ (key, value) ∈ more := by
  have member := (mem_entries_iff _ _ _).mpr found
  rw [entries] at member
  rcases List.mem_append.mp member with isOld | isNew
  · obtain ⟨⟨other, old⟩, isEntry, same⟩ := List.mem_map.mp isOld
    have before := (mem_entries_iff _ _ _).mp isEntry
    split at same <;> cases same
    · exact Or.inr (Or.inl ⟨old, before, rfl⟩)
    · exact Or.inl before
  · exact Or.inr (Or.inr isNew)

end Arena

namespace EditCommand

variable {program after : Program} {command : EditCommand} {result : EditResult}

theorem ChangesOnly.of_lists {statement : StatementId}
    (changes : ChangesOnly program command result after) (listed : after.Lists statement) :
    program.Lists statement ∨ ∃ count, statement = countId count := by
  obtain ⟨list, items, found, member⟩ := listed
  cases changes with
  | @added target _ id node _ _ _ _ _ lists _ took _ _ =>
      rcases Arena.of_find?_changedAt lists found with before | ⟨old, before, rfl⟩ | isNew
      · exact Or.inl ⟨list, items, before, member⟩
      · rcases List.mem_append.mp member with isOld | isLast
        · exact Or.inl ⟨list, old, before, isOld⟩
        · obtain ⟨count, named, -⟩ := took.numbered id List.mem_cons_self
          exact Or.inr ⟨count, (List.mem_singleton.mp isLast).trans named⟩
      · obtain ⟨body, -, same⟩ := List.mem_map.mp isNew
        cases same
        cases member
  | filled _ _ _ same =>
      rw [same] at found
      exact Or.inl ⟨list, items, found, member⟩
  | cleared _ same =>
      rw [same] at found
      exact Or.inl ⟨list, items, found, member⟩
  | renamed _ _ same =>
      rw [same] at found
      exact Or.inl ⟨list, items, found, member⟩
  | removed _ _ lists _ =>
      rw [← List.append_nil (Arena.changedAt _ _ _)] at lists
      rcases Arena.of_find?_changedAt lists found with before | ⟨old, before, rfl⟩ | isNew
      · exact Or.inl ⟨list, items, before, member⟩
      · exact Or.inl ⟨list, old, before, List.mem_of_mem_eraseIdx member⟩
      · cases isNew

theorem ChangesOnly.of_assigns {name : String}
    (changes : ChangesOnly program command result after) (assigns : after.Assigns name) :
    program.Assigns name ∨ name = Program.defaultVariable ∨
      ∃ statement, command = .rename statement name := by
  obtain ⟨statement, value, found⟩ := assigns
  cases changes with
  | @added _ _ id node _ _ _ named statements _ _ _ _ _ =>
      have member := (Arena.mem_entries_iff _ _ _).mpr found
      rw [statements] at member
      rcases List.mem_append.mp member with isOld | isNew
      · exact Or.inl ⟨statement, value, (Arena.mem_entries_iff _ _ _).mp isOld⟩
      · obtain ⟨-, isNode⟩ := Prod.mk.inj (List.mem_singleton.mp isNew)
        exact Or.inr (Or.inl (named name value isNode.symm))
  | filled _ _ _ same =>
      rw [same] at found
      exact Or.inl ⟨statement, value, found⟩
  | cleared _ same =>
      rw [same] at found
      exact Or.inl ⟨statement, value, found⟩
  | renamed _ statements _ =>
      rw [← List.append_nil (Arena.changedAt _ _ _)] at statements
      rcases Arena.of_find?_changedAt statements found with before | ⟨_, _, isNode⟩ | isNew
      · exact Or.inl ⟨statement, value, before⟩
      · obtain ⟨rfl, -⟩ := Statement.assign.inj isNode
        exact Or.inr (Or.inr ⟨_, rfl⟩)
      · cases isNew
  | removed _ _ _ same =>
      rw [same] at found
      exact Or.inl ⟨statement, value, found⟩

theorem attempt_cases (command : EditCommand) (program : Program) :
    (∃ result, ChangesOnly program command result (command.attempt program).2) ∨
      OnlyGrown program (command.attempt program).2 := by
  have change := command.attempt_changes program
  cases outcome : command.edit program with
  | ok result after =>
      rw [attempt_of_ok outcome]
      exact Or.inl ⟨result, changes_of_ok outcome⟩
  | error error after =>
      rw [attempt_of_error outcome] at change ⊢
      cases change with
      | refused _ _ => exact Or.inr (.refl _)
      | cutOff _ grown => exact Or.inr grown

/-- The lists of an edited program hold what they held and identifiers that were handed out. -/
theorem lists_of_attemptAll {commands : List EditCommand} {statement : StatementId}
    (listed : (attemptAll program commands).2.Lists statement) :
    program.Lists statement ∨ ∃ count, statement = countId count := by
  induction commands generalizing program with
  | nil => exact Or.inl listed
  | cons command later ih =>
      rcases ih listed with before | handedOut
      · rcases attempt_cases command program with ⟨result, changes⟩ | grown
        · exact changes.of_lists before
        · obtain ⟨list, items, found, member⟩ := before
          rcases grown.list? list items found with rfl | kept
          · cases member
          · exact Or.inl ⟨list, items, kept, member⟩
      · exact Or.inr handedOut

/-- An edited program writes what it wrote, the variable of new assignments and those that
assignments were renamed to. -/
theorem assigns_of_attemptAll {commands : List EditCommand} {name : String}
    (assigns : (attemptAll program commands).2.Assigns name) :
    program.Assigns name ∨ name = Program.defaultVariable ∨
      ∃ statement, .rename statement name ∈ commands := by
  induction commands generalizing program with
  | nil => exact Or.inl assigns
  | cons command later ih =>
      rcases ih assigns with before | isDefault | ⟨statement, renamed⟩
      · rcases attempt_cases command program with ⟨result, changes⟩ | grown
        · rcases changes.of_assigns before with first | isDefault | ⟨statement, rfl⟩
          · exact Or.inl first
          · exact Or.inr (Or.inl isDefault)
          · exact Or.inr (Or.inr ⟨statement, List.mem_cons_self⟩)
        · obtain ⟨statement, value, found⟩ : (command.attempt program).2.Assigns name := before
          rw [Program.statement?, grown.statements] at found
          exact Or.inl ⟨statement, value, found⟩
      · exact Or.inr (Or.inl isDefault)
      · exact Or.inr (Or.inr ⟨statement, List.mem_cons_of_mem command renamed⟩)

end EditCommand

/-! ### The line breaks of a drive -/

namespace Program

variable {commands : List EditCommand}

theorem not_lists_empty (statement : StatementId) : ¬ empty.Lists statement := by
  rintro ⟨list, items, found, member⟩
  simp only [list?, empty, Arena.find?_insert] at found
  split at found <;> cases found
  cases member

theorem not_assigns_empty (name : String) : ¬ empty.Assigns name := by
  rintro ⟨statement, value, found⟩
  cases found

theorem unbroken_of_lists {statement : StatementId}
    (listed : (EditCommand.attemptAll .empty commands).2.Lists statement) :
    Terminal.lineBreaks statement = 0 := by
  rcases EditCommand.lists_of_attemptAll listed with before | ⟨count, rfl⟩
  · exact absurd before (not_lists_empty statement)
  · exact Terminal.lineBreaks_countId count

theorem unbroken_of_knows
    (plain : ∀ statement name, .rename statement name ∈ commands → '\n' ∉ name.toList)
    {name : String} (known : (EditCommand.attemptAll .empty commands).2.Knows name) :
    '\n' ∉ name.toList := by
  rcases known with special | assigned
  · have unbroken : ∀ name ∈ ["angle", "x", "y"], '\n' ∉ name.toList := by decide
    exact unbroken name special
  · rcases EditCommand.assigns_of_attemptAll assigned with before | rfl | ⟨statement, renamed⟩
    · exact absurd before (not_assigns_empty name)
    · decide
    · exact plain statement name renamed

end Program

namespace Terminal

/-- Whatever a program was edited to, a drive onto an output that is never closed writes a line
break for each rendered snapshot and one for each in the names that the snapshots show.  So there is
one line per snapshot exactly if no shown name has a line break, and in particular if no assignment
was renamed to one that does. -/
theorem edited_text_breaks_only_in_names (commands : List EditCommand) {π : Type}
    (settings : DriveSettings) (wait : Span → π → Bool × π) (pacer : π) (turns : Nat)
    (outcome : Outcome) (final : Show Paper π)
    (returned : Drive.within
      (host (EditCommand.attemptAll .empty commands).2 .text ⟨Paper.write, wait⟩) settings turns 0
      (fresh {} pacer) = some (outcome, final)) :
    let shown :=
      (Run.start false).shown (EditCommand.attemptAll .empty commands).2 outcome.rendered
    let names := shown.flatMap Snapshot.names
    shown.length = outcome.rendered ∧
    lineBreaks final.output.written = outcome.rendered + lineBreaks (String.join names) ∧
    (lineBreaks final.output.written = outcome.rendered ↔ ∀ name ∈ names, '\n' ∉ name.toList) ∧
    ((∀ statement name, .rename statement name ∈ commands → '\n' ∉ name.toList) →
      lineBreaks final.output.written = outcome.rendered) := by
  intro shown names
  have result (snapshot : Snapshot) (member : snapshot ∈ shown) :
      ∃ count, (Run.start false).result (EditCommand.attemptAll .empty commands).2 count =
        some snapshot := by
    obtain ⟨count, -, returns⟩ := List.mem_filterMap.mp member
    exact ⟨count, returns⟩
  obtain ⟨length_eq, written⟩ := written_of_within returned
  have unbroken : ∀ snapshot ∈ shown, lineBreaks snapshot.statement = 0 := by
    intro snapshot member
    obtain ⟨count, returns⟩ := result snapshot member
    exact Program.unbroken_of_lists (Run.lists_of_result returns)
  have counted : lineBreaks final.output.written =
      outcome.rendered + lineBreaks (String.join names) := by
    rw [written, Snapshot.lineBreaks_linesText_text unbroken, length_eq]
  have exact_iff : lineBreaks final.output.written = outcome.rendered ↔
      ∀ name ∈ names, '\n' ∉ name.toList := by
    rw [counted, Nat.add_eq_left, lineBreaks_join_eq_zero_iff]
  refine ⟨length_eq, counted, exact_iff, fun plain => exact_iff.mpr ?_⟩
  intro name isShown
  obtain ⟨snapshot, member, isName⟩ := List.mem_flatMap.mp isShown
  obtain ⟨pair, isValue, rfl⟩ := List.mem_map.mp isName
  obtain ⟨count, returns⟩ := result snapshot member
  exact Program.unbroken_of_knows plain (Run.knows_of_result returns isValue)

/-- An assignment that is renamed, and a sleep behind it. -/
def renamedAssignment (name : String) : List EditCommand :=
  [.addStatement entryList "assign", .rename "0" name, .addStatement entryList "sleep"]

theorem renamed_with_space_one_line_each :
    ∃ final, Drive.within (host (EditCommand.attemptAll .empty (renamedAssignment "a b")).2 .text
        paperDevices) {} 4 0 (fresh {} ()) = some (⟨.completed, 3⟩, final) ∧
      lineBreaks final.output.written = 3 := by
  have outcome : (Drive.within (host (EditCommand.attemptAll .empty (renamedAssignment "a b")).2
      .text paperDevices) {} 4 0 (fresh {} ())).map Prod.fst = some ⟨.completed, 3⟩ := by
    decide +kernel
  obtain ⟨⟨outcome, final⟩, returned, rfl⟩ := Option.map_eq_some_iff.mp outcome
  obtain ⟨-, -, -, onePerSnapshot⟩ := edited_text_breaks_only_in_names (renamedAssignment "a b") {}
    paperDevices.wait () 4 _ final returned
  refine ⟨final, returned, onePerSnapshot ?_⟩
  intro statement name renamed
  obtain ⟨-, rfl⟩ : statement = "0" ∧ name = "a b" := by simpa [renamedAssignment] using renamed
  decide

/-- A line break in the name of a variable is written each time the variable is shown: three
snapshots are rendered and five lines are written. -/
theorem renamed_with_line_break_splits_lines :
    ∃ final, Drive.within (host (EditCommand.attemptAll .empty (renamedAssignment "a\nb")).2 .text
        paperDevices) {} 4 0 (fresh {} ()) = some (⟨.completed, 3⟩, final) ∧
      lineBreaks final.output.written = 5 := by
  have outcome : (Drive.within (host (EditCommand.attemptAll .empty (renamedAssignment "a\nb")).2
      .text paperDevices) {} 4 0 (fresh {} ())).map
        (fun drive => (drive.1, lineBreaks drive.2.output.written)) =
      some (⟨.completed, 3⟩, 5) := by
    decide +kernel
  obtain ⟨⟨outcome, final⟩, returned, same⟩ := Option.map_eq_some_iff.mp outcome
  obtain ⟨rfl, broken⟩ := Prod.mk.inj same
  exact ⟨final, returned, broken⟩

end Terminal

end BlockStage

import BlockStage.Proofs.ProgramPlaces

/-! # The statements of an edited program form a forest

A program may list a statement twice, share a body or contain itself.  Editing does not lead
there: whatever edits are asked for, from the empty program on, every statement stands in at
most one place, every body belongs to one statement, and no statement is inside of itself.
Nothing but the order of identifiers keeps it so.  A statement is added to a list that is
there already, so a statement inside of another has the larger number.
-/

namespace BlockStage

namespace Program

/-- The second statement stands in a body of the first. -/
def Contains (program : Program) (parent child : StatementId) : Prop :=
  ∃ slot body index, program.bodyAt? parent slot = some body ∧
    program.statementAt? body index = some child

/-- Every statement that is listed is stored and listed once, and every list but the entry
list is the body of one statement, in one slot. -/
structure HeldOnce (program : Program) : Prop where
  stored : ∀ {list index statement}, program.statementAt? list index = some statement →
    (program.statement? statement).isSome
  listedOnce : ∀ {first second index other statement},
    program.statementAt? first index = some statement →
    program.statementAt? second other = some statement → first = second ∧ index = other
  bodyExists : ∀ {statement slot body}, program.bodyAt? statement slot = some body →
    (program.list? body).isSome
  owned : ∀ {list}, (program.list? list).isSome → list ≠ entryList →
    ∃ statement slot, program.bodyAt? statement slot = some list
  ownedOnce : ∀ {first second slot other body}, program.bodyAt? first slot = some body →
    program.bodyAt? second other = some body → first = second ∧ slot = other
  entryFree : ∀ {statement slot}, program.bodyAt? statement slot ≠ some entryList

/-- The statements of the program form a forest. -/
structure IsForest (program : Program) : Prop extends HeldOnce program where
  acyclic : ∀ statement, ¬ Relation.TransGen program.Contains statement statement

/-- What edits preserve: the program holds its parts once, all its statements have numbers
below the counter, and those inside of a statement have larger ones. -/
structure Tidy (program : Program) : Prop extends HeldOnce program where
  entryExists : (program.list? entryList).isSome
  numbered : ∀ {statement}, (program.statement? statement).isSome →
    Numbered 0 program.statementCount statement
  rising : ∀ ⦃parent child⦄, program.Contains parent child → Precedes parent child

theorem Tidy.isForest {program : Program} (tidy : Tidy program) : program.IsForest :=
  { tidy.toHeldOnce with acyclic := Precedes.not_transGen tidy.rising }

theorem isSome_of_bodyAt? {program : Program} {statement : StatementId} {slot : Nat}
    {body : ListId} (owns : program.bodyAt? statement slot = some body) :
    (program.statement? statement).isSome := by
  obtain ⟨node, found, -⟩ := bodyAt?_eq_some_iff.mp owns
  simp [found]

theorem isSome_of_statementAt? {program : Program} {list : ListId} {index : Nat}
    {statement : StatementId} (listed : program.statementAt? list index = some statement) :
    (program.list? list).isSome := by
  obtain ⟨items, found, -⟩ := statementAt?_eq_some_iff.mp listed
  simp [found]

theorem tidy_empty : Tidy Program.empty := by
  have noStatement (statement : StatementId) : Program.empty.statement? statement = none :=
    Arena.find?_empty statement
  have noBody (statement : StatementId) (slot : Nat) :
      Program.empty.bodyAt? statement slot = none := by
    rw [bodyAt?, noStatement]
    rfl
  have lists (list : ListId) : Program.empty.list? list =
      if list = entryList then some [] else none := Arena.find?_insert _ _ _ _
  have nothingListed (list : ListId) (index : Nat) :
      Program.empty.statementAt? list index = none := by
    rw [statementAt?, lists]
    split <;> rfl
  refine { stored := ?_, listedOnce := ?_, bodyExists := ?_, owned := ?_, ownedOnce := ?_,
           entryFree := ?_, entryExists := ?_, numbered := ?_, rising := ?_ }
  · simp [nothingListed]
  · simp [nothingListed]
  · simp [noBody]
  · intro list known notEntry
    simp [lists, notEntry] at known
  · simp [noBody]
  · simp [noBody]
  · simp [lists]
  · simp [noStatement]
  · rintro parent child ⟨slot, body, index, owns, -⟩
    simp [noBody] at owns

namespace Tidy

variable {program after : Program}

/-- A new statement is listed at one place, its bodies are its own, and it has a larger number
than the statement to whose body it was added. -/
theorem added (tidy : Tidy program) {list : ListId} {id : StatementId} {node : Statement}
    (added : Added program list id node after) : Tidy after := by
  obtain ⟨items, found⟩ := Option.isSome_iff_exists.mp added.listed
  have unlisted {place : ListId} {index : Nat} : program.statementAt? place index ≠ some id := by
    intro listed
    have known := tidy.stored listed
    rw [added.statement?_eq_none] at known
    cases known
  have isNew {body : ListId} {slot : Nat} (isBody : node.bodies[slot]? = some body) :
      program.list? body = none := added.list?_eq_none (List.mem_of_getElem? isBody)
  have unowned {body : ListId} {statement : StatementId} {slot other : Nat}
      (isBody : node.bodies[slot]? = some body) :
      program.bodyAt? statement other ≠ some body := by
    intro owns
    have known := tidy.bodyExists owns
    rw [isNew isBody] at known
    cases known
  have idNumbered : Numbered program.statementCount after.statementCount id :=
    added.tookStatement.numbered id List.mem_cons_self
  refine { stored := ?_, listedOnce := ?_, bodyExists := ?_, owned := ?_, ownedOnce := ?_,
           entryFree := ?_, entryExists := ?_, numbered := ?_, rising := ?_ }
  · intro place index statement listed
    rw [added.isSome_statement?]
    rcases (added.statementAt?_iff found _ _ _).mp listed with before | ⟨-, -, same⟩
    · exact Or.inl (tidy.stored before)
    · exact Or.inr same
  · intro first second index other statement listedFirst listedSecond
    have places := added.statementAt?_iff found
    rcases (places _ _ _).mp listedFirst with before | ⟨here, atEnd, isId⟩ <;>
      rcases (places _ _ _).mp listedSecond with old | ⟨there, endToo, isIdToo⟩
    · exact tidy.listedOnce before old
    · exact absurd (isIdToo ▸ before) unlisted
    · exact absurd (isId ▸ old) unlisted
    · exact ⟨here.trans there.symm, atEnd.trans endToo.symm⟩
  · intro statement slot body owns
    rw [added.isSome_list?]
    rcases (added.bodyAt?_iff _ _ _).mp owns with before | ⟨-, isBody⟩
    · exact Or.inl (tidy.bodyExists before)
    · exact Or.inr (List.mem_of_getElem? isBody)
  · intro place known notEntry
    rcases (added.isSome_list? _).mp known with before | isBody
    · obtain ⟨statement, slot, owns⟩ := tidy.owned before notEntry
      exact ⟨statement, slot, (added.bodyAt?_iff _ _ _).mpr (Or.inl owns)⟩
    · obtain ⟨slot, atSlot⟩ := List.mem_iff_getElem?.mp isBody
      exact ⟨id, slot, (added.bodyAt?_iff _ _ _).mpr (Or.inr ⟨rfl, atSlot⟩)⟩
  · intro first second slot other body ownsFirst ownsSecond
    rcases (added.bodyAt?_iff _ _ _).mp ownsFirst with before | ⟨rfl, isBody⟩ <;>
      rcases (added.bodyAt?_iff _ _ _).mp ownsSecond with old | ⟨rfl, isOther⟩
    · exact tidy.ownedOnce before old
    · exact absurd before (unowned isOther)
    · exact absurd old (unowned isBody)
    · have inside := (List.getElem?_eq_some_iff.mp isBody).1
      exact ⟨rfl, (List.getElem?_inj inside added.tookBodies.nodup).mp (isBody.trans isOther.symm)⟩
  · intro statement slot owns
    rcases (added.bodyAt?_iff _ _ _).mp owns with before | ⟨-, isBody⟩
    · exact tidy.entryFree before
    · have known := tidy.entryExists
      rw [isNew isBody] at known
      cases known
  · exact (added.isSome_list? _).mpr (Or.inl tidy.entryExists)
  · intro statement known
    rcases (added.isSome_statement? _).mp known with before | rfl
    · exact (tidy.numbered before).mono (UInt64.le_refl _) idNumbered.le
    · exact idNumbered.mono UInt64.zero_le (UInt64.le_refl _)
  · rintro parent child ⟨slot, body, index, owns, listed⟩
    rcases (added.bodyAt?_iff _ _ _).mp owns with before | ⟨rfl, isBody⟩ <;>
      rcases (added.statementAt?_iff found _ _ _).mp listed with old | ⟨rfl, rfl, rfl⟩
    · exact tidy.rising ⟨slot, body, index, before, old⟩
    · -- The list was there before, and so was the statement it is a body of.
      exact .of_numbered (tidy.numbered (isSome_of_bodyAt? before)) idNumbered
    · have known := isSome_of_statementAt? old
      rw [isNew isBody] at known
      cases known
    · rw [isNew isBody] at found
      cases found

/-- An edit that keeps bodies and identifiers, and at most drops positions of lists. -/
theorem transfer (tidy : Tidy program) (moved : ListId → Nat → Nat)
    (injective : ∀ list, Function.Injective (moved list))
    (positions : ∀ list index,
      after.statementAt? list index = program.statementAt? list (moved list index))
    (bodies : ∀ statement slot, after.bodyAt? statement slot = program.bodyAt? statement slot)
    (statements : ∀ statement,
      (after.statement? statement).isSome = (program.statement? statement).isSome)
    (lists : ∀ list, (after.list? list).isSome = (program.list? list).isSome)
    (count : after.statementCount = program.statementCount) : Tidy after := by
  refine { stored := ?_, listedOnce := ?_, bodyExists := ?_, owned := ?_, ownedOnce := ?_,
           entryFree := ?_, entryExists := ?_, numbered := ?_, rising := ?_ }
  · intro list index statement listed
    rw [positions] at listed
    rw [statements]
    exact tidy.stored listed
  · intro first second index other statement listedFirst listedSecond
    rw [positions] at listedFirst listedSecond
    obtain ⟨rfl, same⟩ := tidy.listedOnce listedFirst listedSecond
    exact ⟨rfl, injective _ same⟩
  · intro statement slot body owns
    rw [bodies] at owns
    rw [lists]
    exact tidy.bodyExists owns
  · intro list known notEntry
    rw [lists] at known
    simpa only [bodies] using tidy.owned known notEntry
  · intro first second slot other body ownsFirst ownsSecond
    rw [bodies] at ownsFirst ownsSecond
    exact tidy.ownedOnce ownsFirst ownsSecond
  · intro statement slot
    rw [bodies]
    exact tidy.entryFree
  · rw [lists]
    exact tidy.entryExists
  · intro statement known
    rw [statements] at known
    rw [count]
    exact tidy.numbered known
  · rintro parent child ⟨slot, body, index, owns, listed⟩
    rw [bodies] at owns
    rw [positions] at listed
    exact tidy.rising ⟨slot, body, _, owns, listed⟩

theorem removed (tidy : Tidy program) {list : ListId} {index : Nat} {statement : StatementId}
    (removed : program.removeAt list index = some (statement, after)) : Tidy after := by
  have statements : after.statements = program.statements := by
    obtain ⟨items, -, rfl⟩ := removeAt_eq_some removed
    rfl
  have count : after.statementCount = program.statementCount := by
    obtain ⟨items, -, rfl⟩ := removeAt_eq_some removed
    rfl
  refine tidy.transfer _ ?_ (statementAt?_removeAt removed) ?_ ?_
    (isSome_list?_removeAt removed) count
  · intro place first second same
    by_cases here : place = list
    · simp only [here, true_and] at same
      split at same <;> split at same <;> omega
    · simpa [here] using same
  · intro other slot
    simp only [bodyAt?, statement?, statements]
  · intro other
    simp only [statement?, statements]

/-- An edit keeps the program tidy, unless it is cut off by an exhausted counter. -/
theorem change (tidy : Tidy program) {command : EditCommand}
    {outcome : Except EditError EditResult} (change : Change program command outcome after)
    (unexhausted : EditCommand.ranOut outcome = false) : Tidy after := by
  have sameExpressionsApart {other : Program} (statements : other.statements = program.statements)
      (lists : ∀ list, other.list? list = program.list? list)
      (count : other.statementCount = program.statementCount) : Tidy other := by
    refine tidy.transfer (fun _ index => index) (fun _ _ _ same => same) ?_ ?_ ?_ ?_ count
    · simp only [statementAt?, lists, implies_true]
    · simp only [bodyAt?, statement?, statements, implies_true]
    · simp only [statement?, statements, implies_true]
    · simp only [lists, implies_true]
  cases change with
  | added _ added => exact tidy.added added
  | filled filled => exact sameExpressionsApart filled.statements filled.list? filled.statementCount
  | cleared id => exact sameExpressionsApart rfl (fun _ => rfl) rfl
  | renamed found =>
      exact tidy.transfer (fun _ index => index) (fun _ _ _ same => same) (fun _ _ => rfl)
        (bodyAt?_rename found) (isSome_statement?_rename found) (fun _ => rfl) rfl
  | removed removed => exact tidy.removed removed
  | refused => exact tidy
  | cutOff => cases unexhausted

/-- A session keeps the program tidy as long as no counter is exhausted. -/
theorem attemptAll (tidy : Tidy program) (commands : List EditCommand)
    (unexhausted : (EditCommand.attemptAll program commands).1.any EditCommand.ranOut = false) :
    Tidy (EditCommand.attemptAll program commands).2 := by
  induction commands generalizing program with
  | nil => exact tidy
  | cons command later ih =>
      simp only [EditCommand.attemptAll, List.any_cons, Bool.or_eq_false_iff] at unexhausted ⊢
      exact ih (tidy.change (command.attempt_changes program) unexhausted.1) unexhausted.2

end Tidy

end Program

end BlockStage

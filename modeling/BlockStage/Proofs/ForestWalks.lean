import BlockStage.Outline
import BlockStage.Proofs.RunFrames
import BlockStage.Proofs.StatementForest

/-! # Walking a forest of statements

The outline of a program and its runs both descend through lists and bodies, and both have an
answer for what is missing or leads back to itself.  Where the statements form a forest these
answers never come up: the outline is written by rules that know neither missing lists nor
repeated ones, and a run only ever shows statements that are stored and walks lists that
exist.  Sessions of edits lead to such programs.
-/

namespace BlockStage

namespace Program

theorem IsForest.stored_of_mem {program : Program} (forest : program.IsForest) {list : ListId}
    {statements : List StatementId} (found : program.list? list = some statements)
    {statement : StatementId} (member : statement ∈ statements) : (program.statement? statement).isSome := by
  obtain ⟨index, atIndex⟩ := List.mem_iff_getElem?.mp member
  exact forest.stored (statementAt?_eq_some_iff.mpr ⟨statements, found, atIndex⟩)

theorem IsForest.exists_of_mem_bodies {program : Program} (forest : program.IsForest)
    {statement : StatementId} {node : Statement}
    (found : program.statement? statement = some node) {body : ListId}
    (member : body ∈ node.bodies) : (program.list? body).isSome := by
  obtain ⟨slot, atSlot⟩ := List.mem_iff_getElem?.mp member
  exact forest.bodyExists (bodyAt?_eq_some_iff.mpr ⟨node, found, atSlot⟩)

/-! ### The outline of a forest -/

def lineStart (depth : Nat) (statement : StatementId) : String :=
  indentedLine depth ("[" ++ statement ++ "] ")

/-- The lines of a statement, given those of its bodies. -/
def statementLines (program : Program) (depth : Nat) (bodyLines : ListId → List String)
    (statement : StatementId) : List String :=
  match program.statement? statement with
  | none => [lineStart depth statement ++ "_"]
  | some (.assign name value) =>
      [lineStart depth statement ++ name ++ " := " ++ program.expressionText value]
  | some (.branch condition thenBody elseBody) =>
      [lineStart depth statement ++ "if " ++ program.expressionText condition ++
          " (" ++ thenBody ++ ")"] ++ bodyLines thenBody ++
        [indentedLine depth ("else (" ++ elseBody ++ ")")] ++ bodyLines elseBody
  | some (.loop condition body) =>
      [lineStart depth statement ++ "while " ++ program.expressionText condition ++
          " (" ++ body ++ ")"] ++ bodyLines body
  | some (.sleep duration) =>
      [lineStart depth statement ++ "sleep " ++ program.expressionText duration]

theorem listLinesAlong_of_found {program : Program} {path : List ListId} {id : ListId}
    {statements : List StatementId} (found : program.list? id = some statements)
    (unseen : id ∉ path) (depth : Nat) :
    program.listLinesAlong path depth id =
      statements.flatMap
        (program.statementLines depth (program.listLinesAlong (id :: path) (depth + 1))) := by
  rw [listLinesAlong]
  split
  · rename_i missing
    rw [found] at missing
    cases missing
  · rename_i others foundToo
    obtain rfl : statements = others := Option.some.inj (found.symm.trans foundToo)
    rw [dif_neg unseen]
    rfl

/-- The lines that show a row of statements, all of which are stored and whose bodies exist,
each with its bodies written out below it. -/
inductive Outlined (program : Program) : Nat → List StatementId → List String → Prop where
  | done {depth : Nat} : Outlined program depth [] []
  | assign {depth : Nat} {statement : StatementId} {name : String} {value : ExpressionId}
      {rest : List StatementId} {lines : List String} :
      program.statement? statement = some (.assign name value) →
      Outlined program depth rest lines →
      Outlined program depth (statement :: rest)
        ([lineStart depth statement ++ name ++ " := " ++ program.expressionText value] ++ lines)
  | branch {depth : Nat} {statement : StatementId} {condition : ExpressionId}
      {thenBody elseBody : ListId} {thenItems elseItems rest : List StatementId}
      {thenLines elseLines lines : List String} :
      program.statement? statement = some (.branch condition thenBody elseBody) →
      program.list? thenBody = some thenItems →
      Outlined program (depth + 1) thenItems thenLines →
      program.list? elseBody = some elseItems →
      Outlined program (depth + 1) elseItems elseLines →
      Outlined program depth rest lines →
      Outlined program depth (statement :: rest)
        ([lineStart depth statement ++ "if " ++ program.expressionText condition ++
            " (" ++ thenBody ++ ")"] ++ thenLines ++
          [indentedLine depth ("else (" ++ elseBody ++ ")")] ++ elseLines ++ lines)
  | loop {depth : Nat} {statement : StatementId} {condition : ExpressionId} {body : ListId}
      {items rest : List StatementId} {bodyLines lines : List String} :
      program.statement? statement = some (.loop condition body) →
      program.list? body = some items →
      Outlined program (depth + 1) items bodyLines →
      Outlined program depth rest lines →
      Outlined program depth (statement :: rest)
        ([lineStart depth statement ++ "while " ++ program.expressionText condition ++
            " (" ++ body ++ ")"] ++ bodyLines ++ lines)
  | sleep {depth : Nat} {statement : StatementId} {duration : ExpressionId}
      {rest : List StatementId} {lines : List String} :
      program.statement? statement = some (.sleep duration) →
      Outlined program depth rest lines →
      Outlined program depth (statement :: rest)
        ([lineStart depth statement ++ "sleep " ++ program.expressionText duration] ++ lines)

/-- A statement of the first list has the second one as a body. -/
def Leads (program : Program) (list body : ListId) : Prop :=
  ∃ index statement slot, program.statementAt? list index = some statement ∧
    program.bodyAt? statement slot = some body

theorem exists_contains_of_leads {program : Program} {list body : ListId}
    (path : Relation.TransGen program.Leads list body) :
    ∃ index first last slot, program.statementAt? list index = some first ∧
      Relation.ReflTransGen program.Contains first last ∧
      program.bodyAt? last slot = some body := by
  induction path with
  | single edge =>
      obtain ⟨index, statement, slot, listed, owns⟩ := edge
      exact ⟨index, statement, statement, slot, listed, .refl, owns⟩
  | tail _ edge ih =>
      obtain ⟨index, first, last, slot, listed, inside, owns⟩ := ih
      obtain ⟨position, statement, next, listedNext, ownsNext⟩ := edge
      exact ⟨index, first, statement, next, listed,
        inside.tail ⟨slot, _, position, owns, listedNext⟩, ownsNext⟩

/-- A list that led back to itself would hold a statement that is inside of itself. -/
theorem IsForest.not_leads_back {program : Program} (forest : program.IsForest) (list : ListId) :
    ¬ Relation.TransGen program.Leads list list := by
  intro cycle
  obtain ⟨index, first, last, slot, listed, inside, owns⟩ := exists_contains_of_leads cycle
  exact forest.acyclic first (.tail' inside ⟨slot, list, index, owns, listed⟩)

/-- A row of stored statements is outlined by the rules if all their bodies are. -/
theorem outlined_row {program : Program} {depth : Nat} {bodyLines : ListId → List String}
    {statements : List StatementId}
    (stored : ∀ statement ∈ statements, (program.statement? statement).isSome)
    (bodies : ∀ statement ∈ statements, ∀ node, program.statement? statement = some node →
      ∀ body ∈ node.bodies, ∃ items, program.list? body = some items ∧
        program.Outlined (depth + 1) items (bodyLines body)) :
    program.Outlined depth statements
      (statements.flatMap (program.statementLines depth bodyLines)) := by
  induction statements with
  | nil => exact .done
  | cons statement rest ih =>
      obtain ⟨storedHere, storedLater⟩ := List.forall_mem_cons.mp stored
      obtain ⟨bodiesHere, bodiesLater⟩ := List.forall_mem_cons.mp bodies
      have later := ih storedLater bodiesLater
      obtain ⟨node, found⟩ := Option.isSome_iff_exists.mp storedHere
      have here := bodiesHere node found
      rw [List.flatMap_cons]
      cases node with
      | assign name value =>
          simp only [statementLines, found]
          exact .assign found later
      | branch condition thenBody elseBody =>
          obtain ⟨thenItems, thenFound, thenOutlined⟩ := here thenBody (by simp [Statement.bodies])
          obtain ⟨elseItems, elseFound, elseOutlined⟩ := here elseBody (by simp [Statement.bodies])
          simp only [statementLines, found]
          exact .branch found thenFound thenOutlined elseFound elseOutlined later
      | loop condition body =>
          obtain ⟨items, itemsFound, itemsOutlined⟩ := here body (by simp [Statement.bodies])
          simp only [statementLines, found]
          exact .loop found itemsFound itemsOutlined later
      | sleep duration =>
          simp only [statementLines, found]
          exact .sleep found later

/-- In a forest the lines of a list are written by the rules, along whatever path of lists it
was reached. -/
theorem IsForest.outlined {program : Program} (forest : program.IsForest) (path : List ListId)
    (depth : Nat) (id : ListId) {statements : List StatementId}
    (found : program.list? id = some statements)
    (reached : ∀ ancestor ∈ path, Relation.TransGen program.Leads ancestor id) :
    program.Outlined depth statements (program.listLinesAlong path depth id) := by
  induction left : program.lists.unvisited path using Nat.strong_induction_on
    generalizing path depth id statements with
  | _ count ih =>
    have unseen : id ∉ path := fun seen => forest.not_leads_back id (reached id seen)
    have fewer : program.lists.unvisited (id :: path) < count :=
      left ▸ Arena.unvisited_cons_lt (Arena.mem_keys_of_find? found) unseen
    rw [listLinesAlong_of_found found unseen]
    apply outlined_row
    · exact fun statement member => forest.stored_of_mem found member
    · -- A body of a statement in the list is reached along the list and what led to it.
      intro statement member node node? body isBody
      obtain ⟨items, foundItems⟩ :=
        Option.isSome_iff_exists.mp (forest.exists_of_mem_bodies node? isBody)
      have edge : program.Leads id body := by
        obtain ⟨index, atIndex⟩ := List.mem_iff_getElem?.mp member
        obtain ⟨slot, atSlot⟩ := List.mem_iff_getElem?.mp isBody
        exact ⟨index, statement, slot, statementAt?_eq_some_iff.mpr ⟨statements, found, atIndex⟩,
          bodyAt?_eq_some_iff.mpr ⟨node, node?, atSlot⟩⟩
      refine ⟨items, foundItems, ih _ fewer (id :: path) (depth + 1) body foundItems ?_ rfl⟩
      intro ancestor isAncestor
      rcases List.mem_cons.mp isAncestor with rfl | further
      · exact .single edge
      · exact (reached ancestor further).tail edge

/-- The first character of a line that is not a blank. -/
def firstSign (line : String) : Option Char :=
  line.toList.find? (· != ' ')

theorem firstSign_append (front back : String) :
    firstSign (front ++ back) = (firstSign front).or (firstSign back) := by
  rw [firstSign, String.toList_append, List.find?_append]
  rfl

theorem firstSign_indentedLine (depth : Nat) (content : String) :
    firstSign (indentedLine depth content) = firstSign content := by
  have blank : firstSign (String.ofList (List.replicate (2 * depth) ' ')) = none := by
    rw [firstSign, String.toList_ofList]
    simp
  rw [indentedLine, firstSign_append, blank, Option.none_or]

theorem firstSign_lineStart (depth : Nat) (statement : StatementId) :
    firstSign (lineStart depth statement) = some '[' := by
  rw [lineStart, firstSign_indentedLine, firstSign_append, firstSign_append]
  rfl

/-- Each line names a statement or begins the second body of a branch. -/
theorem Outlined.firstSign {program : Program} {depth : Nat} {statements : List StatementId}
    {lines : List String} (outlined : program.Outlined depth statements lines) {line : String}
    (member : line ∈ lines) : firstSign line = some '[' ∨ firstSign line = some 'e' := by
  have elseLine (level : Nat) (body : ListId) :
      Program.firstSign (indentedLine level ("else (" ++ body ++ ")")) = some 'e' := by
    rw [firstSign_indentedLine, firstSign_append, firstSign_append]
    rfl
  induction outlined with
  | done => cases member
  | assign _ _ later =>
      rcases List.mem_append.mp member with isFirst | isLater
      · obtain rfl := List.mem_singleton.mp isFirst
        simp [firstSign_append, firstSign_lineStart]
      · exact later isLater
  | branch _ _ _ _ _ _ inThen inElse later =>
      simp only [List.mem_append, List.mem_singleton] at member
      rcases member with (((rfl | isThen) | rfl) | isElse) | isLater
      · simp [firstSign_append, firstSign_lineStart]
      · exact inThen isThen
      · exact Or.inr (elseLine _ _)
      · exact inElse isElse
      · exact later isLater
  | loop _ _ _ _ inBody later =>
      simp only [List.mem_append, List.mem_singleton] at member
      rcases member with (rfl | isBody) | isLater
      · simp [firstSign_append, firstSign_lineStart]
      · exact inBody isBody
      · exact later isLater
  | sleep _ _ later =>
      rcases List.mem_append.mp member with isFirst | isLater
      · obtain rfl := List.mem_singleton.mp isFirst
        simp [firstSign_append, firstSign_lineStart]
      · exact later isLater

/-- No line stands for a list that came up before or for one that is missing. -/
theorem Outlined.no_list_left_out {program : Program} {depth : Nat}
    {statements : List StatementId} {lines : List String}
    (outlined : program.Outlined depth statements lines) {line : String} (member : line ∈ lines)
    (level : Nat) :
    line ≠ indentedLine level "..." ∧
      ∀ list : ListId, line ≠ indentedLine level ("<missing list " ++ list ++ ">") := by
  have signs := outlined.firstSign member
  constructor
  · rintro rfl
    rw [firstSign_indentedLine] at signs
    revert signs
    decide
  · rintro list rfl
    rw [firstSign_indentedLine, firstSign_append, firstSign_append] at signs
    have less : Program.firstSign "<missing list " = some '<' := by decide
    simp [less] at signs

end Program

/-! ### The runs of a forest -/

/-- What a frame refers to is there. -/
def Frame.Present (program : Program) : Frame → Prop
  | .sequence statements _ owner =>
      (∃ list, program.list? list = some statements) ∧
        ∀ statement, owner = some statement → (program.statement? statement).isSome
  | .loop statement _ body =>
      (program.statement? statement).isSome ∧ (program.list? body).isSome

namespace Program

variable {program : Program}

theorem exists_list?_listOrEmpty {list : ListId} (known : (program.list? list).isSome) :
    program.list? list = some (program.listOrEmpty list) := by
  obtain ⟨statements, found⟩ := Option.isSome_iff_exists.mp known
  rw [listOrEmpty, found]
  rfl

namespace IsForest

/-- Every frame of a run walks a list that is there. -/
theorem present_of_stacked (forest : program.IsForest)
    (entryExists : (program.list? entryList).isSome) {stack : List Frame}
    (stacked : Run.Stacked program stack) :
    ∀ frame ∈ stack, frame.Present program := by
  induction stacked with
  | entry _ =>
      intro frame member
      obtain rfl := List.mem_singleton.mp member
      exact ⟨⟨entryList, exists_list?_listOrEmpty entryExists⟩, by simp⟩
  | @body statement condition thenBody elseBody body next below rest node chosen _ _ _ ih =>
      have known : (program.list? body).isSome := by
        apply forest.exists_of_mem_bodies node
        rcases chosen with rfl | rfl <;> simp [Statement.bodies]
      refine List.forall_mem_cons.mpr ⟨⟨⟨body, exists_list?_listOrEmpty known⟩, ?_⟩, ih⟩
      rintro owner ⟨⟩
      simp [node]
  | @round statement condition body next rest _ _ ih =>
      obtain ⟨stored, known⟩ := ih _ List.mem_cons_self
      refine List.forall_mem_cons.mpr ⟨⟨⟨body, exists_list?_listOrEmpty known⟩, ?_⟩, ih⟩
      rintro owner ⟨⟩
      exact stored
  | @loop statement condition body below rest node _ _ ih =>
      refine List.forall_mem_cons.mpr ⟨⟨by simp [node], ?_⟩, ih⟩
      exact forest.exists_of_mem_bodies node (by simp [Statement.bodies])

theorem stored_of_lastTaken? (forest : program.IsForest) {stack : List Frame}
    (present : ∀ frame ∈ stack, frame.Present program) {statement : StatementId}
    (taken : Run.lastTaken? stack = some statement) : (program.statement? statement).isSome := by
  obtain ⟨frame, rest, rfl, taken⟩ := Run.exists_of_lastTaken? taken
  have here := present frame List.mem_cons_self
  cases frame with
  | loop _ _ _ => cases taken
  | sequence statements next owner =>
      obtain ⟨⟨list, found⟩, -⟩ := here
      cases next with
      | zero => cases taken
      | succ next => exact forest.stored_of_mem found (List.mem_of_getElem? taken)

/-- Where the walk stops, it shows a stored statement: one out of a list, or the owner of an
empty one. -/
theorem stored_of_advance (forest : program.IsForest) {bindings : Bindings} {stack : List Frame}
    (present : ∀ frame ∈ stack, frame.Present program) {stop : Run.Stop}
    (stopped : Run.advance program bindings stack = some stop) :
    (program.statement? stop.statement).isSome := by
  induction stack with
  | nil => cases stopped
  | cons frame rest ih =>
      obtain ⟨here, deeper⟩ := List.forall_mem_cons.mp present
      cases frame with
      | sequence statements next owner =>
          obtain ⟨⟨list, found⟩, ownerStored⟩ := here
          simp only [Run.advance] at stopped
          split at stopped
          · rename_i statement upcoming
            cases stopped
            exact forest.stored_of_mem found (List.mem_of_getElem? upcoming)
          · split at stopped
            · cases stopped
              exact ownerStored _ rfl
            · exact ih deeper stopped
      | loop statement condition body =>
          obtain ⟨stored, known⟩ := here
          simp only [Run.advance] at stopped
          split at stopped
          · cases stopped
            have found := exists_list?_listOrEmpty known
            cases entered : program.listOrEmpty body with
            | nil => exact stored
            | cons first others =>
                rw [entered] at found
                exact forest.stored_of_mem found List.mem_cons_self
          · exact ih deeper stopped

theorem stored_of_proceed (forest : program.IsForest) {run : Run} {bindings : Bindings}
    {stack : List Frame} (present : ∀ frame ∈ stack, frame.Present program) {snapshot : Snapshot}
    (shown : (run.proceed program bindings stack).1 = some snapshot) :
    (program.statement? snapshot.statement).isSome := by
  unfold Run.proceed at shown
  split at shown
  · rename_i stop stopped
    cases shown
    exact forest.stored_of_advance present stopped
  · cases shown

theorem stored_of_step (forest : program.IsForest)
    (entryExists : (program.list? entryList).isSome) {run : Run}
    (shaped : run.WellShaped program) {snapshot : Snapshot}
    (shown : (run.step program).1 = some snapshot) :
    (program.statement? snapshot.statement).isSome := by
  unfold Run.step at shown
  split at shown
  · cases shown
  · have start : Run.Stacked program [.sequence program.entry 0 none] := .entry (Nat.zero_le _)
    exact forest.stored_of_proceed (forest.present_of_stacked entryExists start) shown
  · rename_i running
    simp only [Run.WellShaped, running] at shaped
    obtain ⟨stacked, taken⟩ := shaped
    have present := forest.present_of_stacked entryExists stacked
    split at shown
    · exact forest.stored_of_proceed present shown
    · rename_i statement waits
      dsimp only at shown
      split at shown
      · cases shown
        exact forest.stored_of_lastTaken? present (taken statement waits)
      · have effectStacked := stacked.effect (taken statement waits) run.bindings
        exact forest.stored_of_proceed (forest.present_of_stacked entryExists effectStacked) shown

theorem present_of_wellShaped (forest : program.IsForest)
    (entryExists : (program.list? entryList).isSome) {run : Run}
    (shaped : run.WellShaped program) :
    (∀ frame ∈ run.stack, frame.Present program) ∧
      ∀ statement, run.pending = some statement → (program.statement? statement).isSome := by
  unfold Run.WellShaped at shaped
  split at shaped
  · simp [shaped]
  · obtain ⟨stacked, taken⟩ := shaped
    have present := forest.present_of_stacked entryExists stacked
    exact ⟨present, fun statement waits =>
      forest.stored_of_lastTaken? present (taken statement waits)⟩
  · simp [shaped]

end IsForest

/-- After any session of edits on the empty program, failed ones included, the statements form
a forest, as long as no counter is exhausted.  The outline then shows every list in full: no
line says that a list came up before or is missing.  And however far a run has come, its
frames walk lists that are there, and the statement that waits and the one shown next are
stored. -/
theorem edited_program_is_forest (commands : List EditCommand)
    (unexhausted : (EditCommand.attemptAll .empty commands).1.any EditCommand.ranOut = false) :
    let program := (EditCommand.attemptAll .empty commands).2
    program.IsForest ∧
      (∃ statements lines, program.list? entryList = some statements ∧
        program.Outlined 0 statements lines ∧
        program.outline = String.join (lines.map (· ++ "\n")) ∧
        ∀ line ∈ lines, ∀ level, line ≠ indentedLine level "..." ∧
          ∀ list : ListId, line ≠ indentedLine level ("<missing list " ++ list ++ ">")) ∧
      ∀ traced count,
        let run := (Run.start traced).after program count
        (∀ frame ∈ run.stack, frame.Present program) ∧
          (∀ statement, run.pending = some statement → (program.statement? statement).isSome) ∧
          ∀ snapshot, (Run.start traced).result program count = some snapshot →
            (program.statement? snapshot.statement).isSome := by
  intro program
  have tidy : Tidy program := tidy_empty.attemptAll commands unexhausted
  have forest := tidy.isForest
  refine ⟨forest, ?_, ?_⟩
  · obtain ⟨statements, found⟩ := Option.isSome_iff_exists.mp tidy.entryExists
    have outlined := forest.outlined [] 0 entryList found (by simp)
    exact ⟨statements, _, found, outlined, rfl, fun line member => outlined.no_list_left_out member⟩
  · intro traced count
    have shaped := Run.wellShaped_after program traced count
    obtain ⟨present, stored⟩ := forest.present_of_wellShaped tidy.entryExists shaped
    exact ⟨present, stored, fun snapshot => forest.stored_of_step tidy.entryExists shaped⟩

/-- A session that nests a branch in a loop, asks for edits that fail, and takes a statement
out again. -/
def nestedEdits : List EditCommand :=
  [.addStatement entryList "while", .addStatement "0" "if", .addStatement "1" "assign",
    .addStatement "2" "sleep", .addStatement "7" "assign", .addStatement "2" "repeat",
    .fillExpression "0" "lt" none none, .fillExpression "4" "var" none (some "x"),
    .rename "0" "y", .rename "2" "y", .remove "2" 0, .remove "2" 0, .clearExpression "1",
    .addStatement "2" "while"]

theorem nestedEdits_is_forest :
    (EditCommand.attemptAll .empty nestedEdits).1.any EditCommand.ranOut = false ∧
      (EditCommand.attemptAll .empty nestedEdits).2.IsForest ∧
      ∀ count snapshot,
        (Run.start true).result (EditCommand.attemptAll .empty nestedEdits).2 count =
          some snapshot →
        ((EditCommand.attemptAll .empty nestedEdits).2.statement? snapshot.statement).isSome := by
  have unexhausted :
      (EditCommand.attemptAll .empty nestedEdits).1.any EditCommand.ranOut = false := by
    decide +kernel
  obtain ⟨forest, -, runs⟩ := edited_program_is_forest nestedEdits unexhausted
  exact ⟨unexhausted, forest, fun count => (runs true count).2.2⟩

end Program

end BlockStage

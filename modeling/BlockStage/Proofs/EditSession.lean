import BlockStage.Proofs.EditOutcome

/-! # Sessions of edits

A session is a row of edits, each asked for with arbitrary arguments.  What one of them can
do is said here once: it is refused and changes nothing, it is cut off by an exhausted
counter, or it does what it was asked for, and then the tables differ in the named entries
only and every identifier that was taken is the rendering of a number that the counter had
not reached.  What holds after every session follows from these cases alone.
-/

namespace BlockStage

/-! ### Commands that edit -/

/-- An edit as it is asked for on the command line. -/
inductive EditCommand where
  | addStatement (list : ListId) (kind : String)
  | fillExpression (id : ExpressionId) (kind : String) (value : Option Float)
      (name : Option String)
  | clearExpression (id : ExpressionId)
  | rename (statement : StatementId) (name : String)
  | remove (list : ListId) (index : Nat)

/-- What an edit gives: the identifiers it took, the slots it left, the statement it
removed. -/
inductive EditResult where
  | added (statement : StatementId) (slots : Slots)
  | filled (slots : Slots)
  | cleared
  | renamed
  | removed (statement : StatementId)

namespace EditCommand

def edit : EditCommand → Edit EditResult
  | .addStatement list kind =>
      (fun result => .added result.1 result.2) <$> Edit.addStatement list kind
  | .fillExpression id kind value name => .filled <$> Edit.fillExpression id kind value name
  | .clearExpression id => (fun _ => .cleared) <$> Edit.clearExpression id
  | .rename statement name => (fun _ => .renamed) <$> Edit.rename statement name
  | .remove list index => .removed <$> Edit.remove list index

section Giving

variable {α β : Type} {edit : Edit α} {give : α → β} {program after : Program}

theorem map_of_ok {value : α} (done : edit program = .ok value after) :
    (give <$> edit) program = .ok (give value) after := by
  change EStateM.map give edit program = .ok (give value) after
  rw [EStateM.map, done]

theorem map_of_error {error : EditError} (refused : edit program = .error error after) :
    (give <$> edit) program = .error error after := by
  change EStateM.map give edit program = .error error after
  rw [EStateM.map, refused]

theorem map_eq_ok {result : β} (done : (give <$> edit) program = .ok result after) :
    ∃ value, edit program = .ok value after ∧ result = give value := by
  cases outcome : edit program with
  | ok value middle =>
      rw [map_of_ok outcome] at done
      cases done
      exact ⟨value, rfl, rfl⟩
  | error error middle =>
      rw [map_of_error outcome] at done
      cases done

theorem map_eq_error {error : EditError} (refused : (give <$> edit) program = .error error after) :
    edit program = .error error after := by
  cases outcome : edit program with
  | ok value middle =>
      rw [map_of_ok outcome] at refused
      cases refused
  | error error middle =>
      rw [map_of_error outcome] at refused
      cases refused
      rfl

end Giving

theorem keepsFinite {command : EditCommand} {program after : Program} {result : EditResult}
    (done : command.edit program = .ok result after) (finite : program.HasFiniteConstants) :
    after.HasFiniteConstants := by
  cases command with
  | addStatement list kind =>
      obtain ⟨_, added, -⟩ := map_eq_ok done
      exact Edit.addStatement_keepsFinite added finite
  | fillExpression id kind value name =>
      obtain ⟨_, filled, -⟩ := map_eq_ok done
      exact Edit.fillExpression_keepsFinite filled finite
  | clearExpression id =>
      obtain ⟨_, cleared, -⟩ := map_eq_ok done
      exact Edit.clearExpression_keepsFinite cleared finite
  | rename statement name =>
      obtain ⟨_, renamed, -⟩ := map_eq_ok done
      exact Edit.rename_keepsFinite renamed finite
  | remove list index =>
      obtain ⟨_, removed, -⟩ := map_eq_ok done
      exact Edit.remove_keepsFinite removed finite

/-- What becomes of a command, and the program it leaves behind. -/
def attempt (command : EditCommand) (program : Program) : Except EditError EditResult × Program :=
  match command.edit program with
  | .ok result after => (.ok result, after)
  | .error error after => (.error error, after)

/-- What becomes of the commands of a session, and the program at its end. -/
def attemptAll : Program → List EditCommand → List (Except EditError EditResult) × Program
  | program, [] => ([], program)
  | program, command :: later =>
      let (outcome, after) := command.attempt program
      let (outcomes, last) := attemptAll after later
      (outcome :: outcomes, last)

/-- The command was cut off by an exhausted counter. -/
def ranOut : Except EditError EditResult → Bool
  | .error .counterExhausted => true
  | _ => false

end EditCommand

/-! ### What an edit can do -/

/-- A statement with new holes and new empty bodies was stored under a new identifier, which
was put at the end of a list. -/
structure Added (program : Program) (list : ListId) (id : StatementId) (node : Statement)
    (after : Program) : Prop where
  listed : (program.list? list).isSome
  statement? : ∀ other, after.statement? other =
    if other = id then some node else program.statement? other
  list? : ∀ other, after.list? other =
    if other = list then (program.list? list).map (· ++ [id])
    else if other ∈ node.bodies then some []
    else program.list? other
  expressions : after.expressions = program.expressions
  tookStatement : Supply.statements.Took program after [id]
  tookBodies : Supply.lists.Took program after node.bodies
  tookHoles : Supply.expressions.Took program after node.expressions

/-- A node whose operands are new holes was stored under an identifier. -/
structure Filled (program : Program) (id : ExpressionId) (node : Expression) (after : Program) :
    Prop where
  expressions : after.expressions = program.expressions.insert id node
  statements : after.statements = program.statements
  list? : ∀ other, after.list? other = program.list? other
  statementCount : after.statementCount = program.statementCount
  tookHoles : Supply.expressions.Took program after node.operands

/-- What an edit can do to a program. -/
inductive Change (program : Program) :
    EditCommand → Except EditError EditResult → Program → Prop where
  | added {list : ListId} {word : String} {id : StatementId} {node : Statement} {after : Program} :
      StatementKind.parse word = .ok node.kind →
      Added program list id node after →
      Change program (.addStatement list word)
        (.ok (.added id ⟨node.expressions, node.bodies⟩)) after
  | filled {id : ExpressionId} {word : String} {value : Option Float} {name : Option String}
      {node : Expression} {after : Program} :
      Filled program id node after →
      Change program (.fillExpression id word value name) (.ok (.filled ⟨node.operands, []⟩)) after
  | cleared (id : ExpressionId) :
      Change program (.clearExpression id) (.ok .cleared) (program.setExpression id none)
  | renamed {statement : StatementId} {old name : String} {value : ExpressionId} :
      program.statement? statement = some (.assign old value) →
      Change program (.rename statement name) (.ok .renamed)
        (program.setStatement statement (some (.assign name value)))
  | removed {list : ListId} {index : Nat} {statement : StatementId} {after : Program} :
      program.removeAt list index = some (statement, after) →
      Change program (.remove list index) (.ok (.removed statement)) after
  | refused (command : EditCommand) {error : EditError} :
      error ≠ .counterExhausted → Change program command (.error error) program
  | cutOff (command : EditCommand) {after : Program} :
      OnlyGrown program after → Change program command (.error .counterExhausted) after

namespace Edit

variable {program after : Program}

theorem addStatement_adds {list : ListId} {word : String} {id : StatementId} {slots : Slots}
    (done : addStatement list word program = .ok (id, slots) after) :
    ∃ node, StatementKind.parse word = .ok node.kind ∧ slots = ⟨node.expressions, node.bodies⟩ ∧
      Added program list id node after := by
  obtain ⟨kind, node, built, registered, named, listed, grown, entered, rfl, rfl⟩ :=
    addStatement_eq_ok done
  obtain ⟨reserved, rfl⟩ := Program.newStatement_eq_ok grown
  obtain ⟨same, took⟩ := Program.registerStatement_eq_ok entered
  obtain ⟨items, found⟩ := Option.isSome_iff_exists.mp listed
  have apart : list ∉ node.bodies := fun isBody =>
    reserved.tookBodies.fresh list isBody (Arena.mem_keys_of_find? found)
  have kept (other : ListId) : registered.list? other = built.list? other := by
    rw [same]
    rfl
  have foundStill : registered.list? list = some items := by
    rw [kept, reserved.list?, if_neg apart, found]
  have appended : registered.append list id =
      { registered with lists := registered.lists.insert list (items ++ [id]) } := by
    simp only [Program.append, foundStill]
  have tookStatement : Supply.statements.Took program registered [id] := by
    refine .one ?_ ?_
    · simpa only [Supply.keys, reserved.statements] using took.fresh id List.mem_cons_self
    · simpa only [Supply.count, reserved.statementCount] using took.numbered id List.mem_cons_self
  have tookBodies : Supply.lists.Took program registered node.bodies :=
    reserved.tookBodies.congr (by rw [same]; rfl)
  have tookHoles : Supply.expressions.Took program registered node.expressions :=
    reserved.tookHoles.congr (by rw [same]; rfl)
  rw [appended]
  refine ⟨node, named, rfl, listed, ?_, ?_, ?_, tookStatement.congr rfl, tookBodies.congr rfl,
    tookHoles.congr rfl⟩
  · intro other
    have stored : registered.statements = program.statements.insert id node := by
      rw [same, ← reserved.statements]
    simp only [Program.statement?, stored, Arena.find?_insert]
  · intro other
    have before := kept other
    rw [reserved.list?] at before
    simp only [Program.list?, Arena.find?_insert] at before found ⊢
    rw [before, found]
    rfl
  · rw [← reserved.expressions, same]

theorem operands_adjust (value : Option Float) (name : Option String) (node : Expression) :
    (adjust value name node).operands = node.operands := by
  cases node <;> rfl

theorem fillExpression_fills {id : ExpressionId} {word : String} {value : Option Float}
    {name : Option String} {slots : Slots}
    (done : fillExpression id word value name program = .ok slots after) :
    ∃ node, slots = ⟨node.operands, []⟩ ∧ Filled program id node after := by
  obtain ⟨kind, built, middle, -, -, grown, rfl, rfl⟩ := fillExpression_eq_ok done
  have reserved := Program.newExpression_eq_ok grown
  refine ⟨adjust value name built, by rw [operands_adjust], ?_⟩
  refine ⟨?_, reserved.statements, ?_, reserved.statementCount, ?_⟩
  · rw [← reserved.expressions]
    rfl
  · intro other
    exact (reserved.list? other).trans (by simp)
  · rw [operands_adjust]
    exact reserved.tookHoles.congr rfl

theorem grow_eq_error {α : Type} {growth : Grow α} {error : EditError}
    (refused : grow growth program = .error error after) :
    error = .counterExhausted ∧ growth program = .error ⟨⟩ after := by
  unfold grow at refused
  split at refused
  · cases refused
  · rename_i exhausted
    cases refused
    exact ⟨rfl, exhausted⟩

theorem kindOf_eq_error {α : Type} {parsed : Except UnknownKind α} {error : EditError}
    (refused : kindOf parsed program = .error error after) :
    error ≠ .counterExhausted ∧ after = program := by
  cases parsed with
  | ok named => cases refused
  | error unknown =>
      cases refused
      exact ⟨by simp, rfl⟩

theorem addStatement_eq_error {list : ListId} {word : String} {error : EditError}
    (refused : addStatement list word program = .error error after) :
    (error ≠ .counterExhausted ∧ after = program) ∨
      (error = .counterExhausted ∧ OnlyGrown program after) := by
  rcases bind_eq_error refused with unknown | ⟨kind, _, parsed, rest⟩
  · exact Or.inl (kindOf_eq_error unknown)
  obtain ⟨-, same⟩ := kindOf_eq_ok parsed
  rw [same] at rest
  rcases bind_eq_error rest with got | ⟨_, _, got, rest⟩ <;> cases got
  cases present : program.list? list with
  | none =>
      simp only [present, Option.isNone_none, if_true] at rest
      cases rest
      exact Or.inl ⟨by simp, rfl⟩
  | some items =>
      right
      simp only [present, Option.isNone_some, Bool.false_eq_true, if_false] at rest
      rcases bind_eq_error rest with cut | ⟨node, built, grown, rest⟩
      · obtain ⟨exhausted, grown⟩ := grow_eq_error cut
        exact ⟨exhausted, (Program.growsOnly_newStatement kind).of_error grown⟩
      · have first := (Program.growsOnly_newStatement kind).of_ok (grow_eq_ok grown)
        rcases bind_eq_error rest with cut | ⟨_, _, _, rest⟩
        · obtain ⟨exhausted, registered⟩ := grow_eq_error cut
          exact ⟨exhausted, first.trans (Program.registerStatement_eq_error registered)⟩
        · cases rest

theorem fillExpression_eq_error {id : ExpressionId} {word : String} {value : Option Float}
    {name : Option String} {error : EditError}
    (refused : fillExpression id word value name program = .error error after) :
    (error ≠ .counterExhausted ∧ after = program) ∨
      (error = .counterExhausted ∧ OnlyGrown program after) := by
  rcases bind_eq_error refused with unknown | ⟨kind, _, parsed, rest⟩
  · exact Or.inl (kindOf_eq_error unknown)
  obtain ⟨-, same⟩ := kindOf_eq_ok parsed
  rw [same] at rest
  have grows (unchecked : (do
      let node ← grow (Program.newExpression kind)
      modify fun program => program.setExpression id (some (adjust value name node))
      return Slots.mk node.operands [] : Edit Slots) program = .error error after) :
      error = .counterExhausted ∧ OnlyGrown program after := by
    rcases bind_eq_error unchecked with cut | ⟨node, built, _, rest⟩
    · obtain ⟨exhausted, grown⟩ := grow_eq_error cut
      exact ⟨exhausted, (Program.growsOnly_newExpression kind).of_error grown⟩
    · cases rest
  cases value with
  | none => exact Or.inr (grows rest)
  | some number =>
      cases finite : number.isFinite with
      | false =>
          simp only [finite, Bool.not_false, if_true] at rest
          cases rest
          exact Or.inl ⟨by simp, rfl⟩
      | true =>
          simp only [finite, Bool.not_true, Bool.false_eq_true, if_false] at rest
          exact Or.inr (grows rest)

theorem rename_eq_error {statement : StatementId} {name : String} {error : EditError}
    (refused : rename statement name program = .error error after) :
    error ≠ .counterExhausted ∧ after = program := by
  rcases bind_eq_error refused with got | ⟨_, _, got, rest⟩ <;> cases got
  cases found : program.statement? statement with
  | none =>
      simp only [found] at rest
      cases rest
      exact ⟨by simp, rfl⟩
  | some node =>
      simp only [found] at rest
      cases node <;> cases rest
      all_goals exact ⟨by simp, rfl⟩

theorem remove_eq_error {list : ListId} {index : Nat} {error : EditError}
    (refused : remove list index program = .error error after) :
    error ≠ .counterExhausted ∧ after = program := by
  rcases bind_eq_error refused with got | ⟨_, _, got, rest⟩ <;> cases got
  cases present : program.list? list with
  | none =>
      simp only [present, Option.isNone_none, if_true] at rest
      cases rest
      exact ⟨by simp, rfl⟩
  | some items =>
      simp only [present, Option.isNone_some, Bool.false_eq_true, if_false] at rest
      rcases bind_eq_error rest with got | ⟨_, _, got, rest⟩ <;> cases got
      cases removed : program.removeAt list index with
      | none =>
          simp only [removed] at rest
          cases rest
          exact ⟨by simp, rfl⟩
      | some found =>
          simp only [removed] at rest
          cases rest

end Edit

/-- Every command leads to one of the changes. -/
theorem EditCommand.attempt_changes (command : EditCommand) (program : Program) :
    Change program command (command.attempt program).1 (command.attempt program).2 := by
  have unsuccessful {error : EditError} {after : Program}
      (either : (error ≠ .counterExhausted ∧ after = program) ∨
        (error = .counterExhausted ∧ OnlyGrown program after)) :
      Change program command (.error error) after := by
    rcases either with ⟨plain, rfl⟩ | ⟨rfl, grown⟩
    · exact .refused command plain
    · exact .cutOff command grown
  cases outcome : command.edit program with
  | ok result after =>
      simp only [attempt, outcome]
      cases command with
      | addStatement list word =>
          obtain ⟨⟨id, slots⟩, done, rfl⟩ := map_eq_ok outcome
          obtain ⟨node, named, rfl, added⟩ := Edit.addStatement_adds done
          exact .added named added
      | fillExpression id word value name =>
          obtain ⟨slots, done, rfl⟩ := map_eq_ok outcome
          obtain ⟨node, rfl, filled⟩ := Edit.fillExpression_fills done
          exact .filled filled
      | clearExpression id =>
          obtain ⟨_, done, rfl⟩ := map_eq_ok outcome
          cases done
          exact .cleared id
      | rename statement name =>
          obtain ⟨_, done, rfl⟩ := map_eq_ok outcome
          obtain ⟨old, value, found, rfl⟩ := Edit.rename_eq_ok done
          exact .renamed found
      | remove list index =>
          obtain ⟨statement, done, rfl⟩ := map_eq_ok outcome
          exact .removed (Edit.remove_eq_ok done)
  | error error after =>
      simp only [attempt, outcome]
      apply unsuccessful
      cases command with
      | addStatement list word => exact Edit.addStatement_eq_error (map_eq_error outcome)
      | fillExpression id word value name =>
          exact Edit.fillExpression_eq_error (map_eq_error outcome)
      | clearExpression id => cases map_eq_error outcome
      | rename statement name => exact Or.inl (Edit.rename_eq_error (map_eq_error outcome))
      | remove list index => exact Or.inl (Edit.remove_eq_error (map_eq_error outcome))

end BlockStage

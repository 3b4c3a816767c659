import BlockStage.Proofs.FilledExpression

/-!
# Edits are atomic and local

An edit makes all its checks before it touches the program.  So an edit that is refused leaves
every table, the order of its entries and every counter as they were, and the answer names the
first check that failed.  An edit whose checks pass is done, unless it takes identifiers and the
counters have no room for them.  An edit that is done changes what it names and nothing else.  This
is said entry by entry: the entries behind an edit are those before it, in their order, with one
value changed where it stands and new entries at the end.
-/

namespace BlockStage

namespace Arena

variable {α : Type} {id : String} {arena : Arena α} {entries : List (String × α)}

/-- The entries with the value under one identifier changed where it stands. -/
def changedAt (id : String) (change : α → α) (entries : List (String × α)) : List (String × α) :=
  entries.map fun entry => if entry.1 = id then (entry.1, change entry.2) else entry

theorem changedAt_append (change : α → α) (first second : List (String × α)) :
    changedAt id change (first ++ second) =
      changedAt id change first ++ changedAt id change second :=
  List.map_append

theorem changedAt_changedAt (change further : α → α) :
    changedAt id further (changedAt id change entries) =
      changedAt id (fun value => further (change value)) entries := by
  rw [changedAt, changedAt, List.map_map]
  apply List.map_congr_left
  intro entry _
  by_cases here : entry.1 = id <;> simp [here]

theorem changedAt_eq_self {change : α → α}
    (same : ∀ value, (id, value) ∈ entries → change value = value) :
    changedAt id change entries = entries := by
  have unchanged : ∀ entry ∈ entries,
      (if entry.1 = id then (entry.1, change entry.2) else entry) = entry := by
    rintro ⟨key, value⟩ member
    by_cases here : key = id
    · subst here
      simp [same value member]
    · simp [here]
  exact (List.map_congr_left unchanged).trans (List.map_id' entries)

theorem put_of_found {old : α} (change : α → α) (nodup : (entries.map Prod.fst).Nodup)
    (found : entries.lookup id = some old) :
    put id (change old) entries = changedAt id change entries := by
  induction entries with
  | nil => cases found
  | cons entry rest ih =>
      obtain ⟨key, value⟩ := entry
      obtain ⟨fresh, restNodup⟩ := List.nodup_cons.mp nodup
      rw [lookup_cons_eq] at found
      by_cases here : id = key
      · subst here
        obtain rfl : value = old := by simpa using found
        have untouched : changedAt id change rest = rest := by
          apply changedAt_eq_self
          intro other member
          exact absurd (List.mem_map_of_mem member) fresh
        rw [put, if_pos rfl, changedAt, List.map_cons, if_pos rfl]
        exact congrArg _ untouched.symm
      · rw [if_neg here] at found
        have apart : key ≠ id := fun same => here same.symm
        rw [put, if_neg apart, ih restNodup found, changedAt, changedAt, List.map_cons,
          if_neg apart]

theorem entries_insert_of_found {old : α} (found : arena.find? id = some old) (change : α → α) :
    (arena.insert id (change old)).entries = changedAt id change arena.entries :=
  put_of_found change arena.keys_nodup found

theorem entries_insert_of_unused (unused : id ∉ arena.keys) (value : α) :
    (arena.insert id value).entries = arena.entries ++ [(id, value)] :=
  put_of_not_mem value unused

end Arena

/-! ### What is checked -/

/-- The edit is refused, for the reason that the first failing check gives. -/
inductive EditCommand.Refused (program : Program) : EditCommand → EditError → Prop where
  | statementKind {list : ListId} {word : String} {unknown : UnknownKind} :
      StatementKind.parse word = .error unknown →
      Refused program (.addStatement list word) (.unknownKind unknown)
  | addedTo {list : ListId} {word : String} {kind : StatementKind} :
      StatementKind.parse word = .ok kind → program.list? list = none →
      Refused program (.addStatement list word) (.unknownList list)
  | expressionKind {id : ExpressionId} {word : String} {value : Option Float}
      {name : Option String} {unknown : UnknownKind} :
      ExpressionKind.parse word = .error unknown →
      Refused program (.fillExpression id word value name) (.unknownKind unknown)
  | value {id : ExpressionId} {word : String} {number : Float} {name : Option String}
      {kind : ExpressionKind} :
      ExpressionKind.parse word = .ok kind → number.isFinite = false →
      Refused program (.fillExpression id word (some number) name) (.nonFiniteValue number)
  | statement {statement : StatementId} {name : String} :
      program.statement? statement = none →
      Refused program (.rename statement name) (.unknownStatement statement)
  | assignment {statement : StatementId} {name : String} {node : Statement} :
      program.statement? statement = some node → node.kind ≠ .assign →
      Refused program (.rename statement name) (.notAnAssignment statement)
  | removedFrom {list : ListId} {index : Nat} :
      program.list? list = none → Refused program (.remove list index) (.unknownList list)
  | index {list : ListId} {index : Nat} {items : List StatementId} :
      program.list? list = some items → items.length ≤ index →
      Refused program (.remove list index) (.indexOutOfRange list index)

/-! ### What is taken -/

/-- How many operands an expression of the kind has. -/
def ExpressionKind.operandCount : ExpressionKind → Nat
  | .constant => 0
  | .read => 0
  | .negate => 1
  | .binary _ => 2

theorem Expression.length_operands (node : Expression) :
    node.operands.length = node.kind.operandCount := by
  cases node <;> rfl

/-- The counters have room for the identifiers that an edit takes.  Clearing an expression,
renaming and removing take none. -/
def EditCommand.HasRoom (program : Program) : EditCommand → Prop
  | .addStatement _ word => ∀ kind, StatementKind.parse word = .ok kind → program.HasRoomFor kind
  | .fillExpression _ word _ _ => ∀ kind, ExpressionKind.parse word = .ok kind →
      Supply.expressions.HasRoom program kind.operandCount
  | .clearExpression _ | .rename _ _ | .remove _ _ => True

namespace Program

variable {program : Program}

theorem exists_allocateExpression {amount : Nat}
    (room : Supply.expressions.HasRoom program (amount + 1)) :
    ∃ id after, allocateExpression program = .ok id after ∧
      Supply.expressions.HasRoom after amount := by
  obtain ⟨id, after, asked⟩ := room.exists_allocate
  obtain ⟨ids, enough, nodup, ahead⟩ := room.ahead_of_allocate asked
  exact ⟨id, after, asked, ids, enough, nodup, fun other member => (ahead other member).2⟩

theorem exists_newExpression {kind : ExpressionKind}
    (room : Supply.expressions.HasRoom program kind.operandCount) :
    ∃ node built, newExpression kind program = .ok node built := by
  cases kind with
  | constant => exact ⟨_, _, rfl⟩
  | read => exact ⟨_, _, rfl⟩
  | negate =>
      obtain ⟨operand, after, asked, -⟩ := exists_allocateExpression room
      exact ⟨_, _, bind_of_ok asked⟩
  | binary operator =>
      obtain ⟨left, middle, askedLeft, remaining⟩ := exists_allocateExpression room
      obtain ⟨right, after, askedRight, -⟩ := exists_allocateExpression remaining
      exact ⟨_, _, (bind_of_ok askedLeft).trans (bind_of_ok askedRight)⟩

end Program

/-! ### What is changed -/

/-- The entries of new lists. -/
def emptyEntries (lists : List ListId) : List (ListId × List StatementId) :=
  lists.map (·, [])

/-- What an edit that is done has changed, entry by entry. -/
inductive EditCommand.ChangesOnly (program : Program) :
    EditCommand → EditResult → Program → Prop where
  | added {list : ListId} {word : String} {id : StatementId} {node : Statement} {after : Program} :
      StatementKind.parse word = .ok node.kind → (program.list? list).isSome →
      (∀ name value, node = .assign name value → name = Program.defaultVariable) →
      after.statements.entries = program.statements.entries ++ [(id, node)] →
      after.lists.entries = Arena.changedAt list (· ++ [id]) program.lists.entries ++
        emptyEntries node.bodies →
      after.expressions = program.expressions →
      Supply.statements.Took program after [id] →
      Supply.lists.Took program after node.bodies →
      Supply.expressions.Took program after node.expressions →
      ChangesOnly program (.addStatement list word)
        (.added id ⟨node.expressions, node.bodies⟩) after
  | filled {id : ExpressionId} {word : String} {value : Option Float} {name : Option String}
      {node : Expression} {after : Program} :
      ExpressionKind.parse word = .ok node.kind →
      (id ∈ program.expressions.keys →
        after.expressions.entries =
          Arena.changedAt id (fun _ => node) program.expressions.entries) →
      (id ∉ program.expressions.keys →
        after.expressions.entries = program.expressions.entries ++ [(id, node)]) →
      after = { program with
        expressions := after.expressions
        expressionCount := after.expressionCount } →
      ChangesOnly program (.fillExpression id word value name) (.filled ⟨node.operands, []⟩) after
  | cleared {id : ExpressionId} {after : Program} :
      after.expressions.entries = program.expressions.entries.filter (fun entry => entry.1 != id) →
      after = { program with expressions := after.expressions } →
      ChangesOnly program (.clearExpression id) .cleared after
  | renamed {statement : StatementId} {old name : String} {value : ExpressionId}
      {after : Program} :
      program.statement? statement = some (.assign old value) →
      after.statements.entries =
        Arena.changedAt statement (fun _ => .assign name value) program.statements.entries →
      after = { program with statements := after.statements } →
      ChangesOnly program (.rename statement name) .renamed after
  | removed {list : ListId} {index : Nat} {items : List StatementId} {statement : StatementId}
      {after : Program} :
      program.list? list = some items → items[index]? = some statement →
      after.lists.entries = Arena.changedAt list (·.eraseIdx index) program.lists.entries →
      after = { program with lists := after.lists } →
      ChangesOnly program (.remove list index) (.removed statement) after

namespace Edit

variable {α β : Type} {program after : Program} {list : ListId} {word : String}

theorem bind_of_error {edit : Edit α} {next : α → Edit β} {error : EditError}
    (failed : edit program = .error error after) :
    (edit >>= next) program = .error error after := by
  change EStateM.bind edit next program = .error error after
  rw [EStateM.bind, failed]

theorem get_eq (program : Program) : (get : Edit Program) program = .ok program program := rfl

theorem kindOf_error {parsed : Except UnknownKind α} {unknown : UnknownKind}
    (unnamed : parsed = .error unknown) (program : Program) :
    kindOf parsed program = .error (.unknownKind unknown) program := by
  rw [unnamed]
  rfl

/-! #### What the checks decide -/

theorem addStatement_of_missing {kind : StatementKind} (named : StatementKind.parse word = .ok kind)
    (missing : program.list? list = none) :
    addStatement list word program = .error (.unknownList list) program := by
  refine (Program.bind_of_ok (kindOf_ok named program)).trans
    ((Program.bind_of_ok (get_eq program)).trans ?_)
  rw [missing]
  rfl

theorem fillExpression_of_not_finite {id : ExpressionId} {name : Option String} {number : Float}
    {kind : ExpressionKind} (named : ExpressionKind.parse word = .ok kind)
    (infinite : number.isFinite = false) :
    fillExpression id word (some number) name program =
      .error (.nonFiniteValue number) program := by
  refine (Program.bind_of_ok (kindOf_ok named program)).trans ?_
  simp only [infinite, Bool.not_false, if_true]
  rfl

theorem rename_of_missing {statement : StatementId} {name : String}
    (missing : program.statement? statement = none) :
    rename statement name program = .error (.unknownStatement statement) program := by
  refine (Program.bind_of_ok (get_eq program)).trans ?_
  rw [missing]
  rfl

theorem rename_of_not_assignment {statement : StatementId} {name : String} {node : Statement}
    (found : program.statement? statement = some node) (other : node.kind ≠ .assign) :
    rename statement name program = .error (.notAnAssignment statement) program := by
  refine (Program.bind_of_ok (get_eq program)).trans ?_
  rw [found]
  cases node with
  | assign name value => exact absurd rfl other
  | branch condition thenBody elseBody => rfl
  | loop condition body => rfl
  | sleep duration => rfl

theorem rename_of_assignment {statement : StatementId} {name old : String} {value : ExpressionId}
    (found : program.statement? statement = some (.assign old value)) :
    rename statement name program =
      .ok () (program.setStatement statement (some (.assign name value))) := by
  refine (Program.bind_of_ok (get_eq program)).trans ?_
  rw [found]
  rfl

theorem remove_of_missing {index : Nat} (missing : program.list? list = none) :
    remove list index program = .error (.unknownList list) program := by
  refine (Program.bind_of_ok (get_eq program)).trans ?_
  rw [missing]
  rfl

theorem remove_of_found {index : Nat} {items : List StatementId} {statement : StatementId}
    (found : program.list? list = some items) (atIndex : items[index]? = some statement) :
    remove list index program =
      .ok statement { program with lists := program.lists.insert list (items.eraseIdx index) } := by
  refine (Program.bind_of_ok (get_eq program)).trans ?_
  simp only [found, Option.isNone_some, Bool.false_eq_true, if_false]
  refine (Program.bind_of_ok (get_eq program)).trans ?_
  simp only [Program.removeAt, found, atIndex]
  rfl

theorem remove_of_short {index : Nat} {items : List StatementId}
    (found : program.list? list = some items) (short : items.length ≤ index) :
    remove list index program = .error (.indexOutOfRange list index) program := by
  refine (Program.bind_of_ok (get_eq program)).trans ?_
  simp only [found, Option.isNone_some, Bool.false_eq_true, if_false]
  refine (Program.bind_of_ok (get_eq program)).trans ?_
  simp only [Program.removeAt, found, List.getElem?_eq_none short]
  rfl

/-! #### Filling behind its checks -/

variable {id : ExpressionId} {value : Option Float} {name : Option String} {kind : ExpressionKind}

theorem fillExpression_of_checks (named : ExpressionKind.parse word = .ok kind)
    (finite : ∀ number, value = some number → number.isFinite = true) :
    fillExpression id word value name program =
      (do
        let node ← grow (Program.newExpression kind)
        modify fun program => program.setExpression id (some (adjust value name node))
        return Slots.mk node.operands [] : Edit Slots) program := by
  refine (Program.bind_of_ok (kindOf_ok named program)).trans ?_
  cases value with
  | none => rfl
  | some number =>
      simp only [finite number rfl, Bool.not_true, Bool.false_eq_true, if_false]

theorem exists_fillExpression (named : ExpressionKind.parse word = .ok kind)
    (finite : ∀ number, value = some number → number.isFinite = true)
    (room : Supply.expressions.HasRoom program kind.operandCount) :
    ∃ slots after, fillExpression id word value name program = .ok slots after := by
  obtain ⟨node, built, grown⟩ := Program.exists_newExpression room
  refine ⟨⟨node.operands, []⟩, built.setExpression id (some (adjust value name node)), ?_⟩
  rw [fillExpression_of_checks named finite]
  exact Program.bind_of_ok (grow_of_ok grown)

/-- An expression that was filled has left the room it needed. -/
theorem hasRoom_of_fillExpression {slots : Slots}
    (done : fillExpression id word value name program = .ok slots after) :
    EditCommand.HasRoom program (.fillExpression id word value name) := by
  obtain ⟨kind, node, built, named, -, grown, -, -⟩ := fillExpression_eq_ok done
  obtain ⟨rfl, -, -⟩ := Program.newExpression_takes grown
  intro other namedToo
  obtain rfl : node.kind = other := Except.ok.inj (named.symm.trans namedToo)
  rw [← node.length_operands]
  exact (Program.newExpression_eq_ok grown).tookHoles.hasRoom

/-- Behind its checks, filling an expression can only fail at an exhausted counter. -/
theorem error_of_fillExpression {error : EditError} (named : ExpressionKind.parse word = .ok kind)
    (finite : ∀ number, value = some number → number.isFinite = true)
    (failed : fillExpression id word value name program = .error error after) :
    error = .counterExhausted := by
  rw [fillExpression_of_checks named finite] at failed
  rcases bind_eq_error failed with cut | ⟨node, built, _, rest⟩
  · exact (grow_eq_error cut).1
  · cases rest

end Edit

namespace EditCommand

variable {program after : Program} {command : EditCommand} {error : EditError}

theorem attempt_of_error (failed : command.edit program = .error error after) :
    command.attempt program = (.error error, after) := by
  rw [attempt, failed]

theorem attempt_of_ok {result : EditResult} (done : command.edit program = .ok result after) :
    command.attempt program = (.ok result, after) := by
  rw [attempt, done]

/-- An edit that is refused has touched nothing. -/
theorem Refused.attempt_eq (refused : Refused program command error) :
    command.attempt program = (.error error, program) := by
  apply attempt_of_error
  cases refused with
  | statementKind unnamed =>
      exact map_of_error (Edit.bind_of_error (Edit.kindOf_error unnamed program))
  | addedTo named missing => exact map_of_error (Edit.addStatement_of_missing named missing)
  | expressionKind unnamed =>
      exact map_of_error (Edit.bind_of_error (Edit.kindOf_error unnamed program))
  | value named infinite => exact map_of_error (Edit.fillExpression_of_not_finite named infinite)
  | statement missing => exact map_of_error (Edit.rename_of_missing missing)
  | assignment found other => exact map_of_error (Edit.rename_of_not_assignment found other)
  | removedFrom missing => exact map_of_error (Edit.remove_of_missing missing)
  | index found short => exact map_of_error (Edit.remove_of_short found short)

theorem Refused.ne_counterExhausted (refused : Refused program command error) :
    error ≠ .counterExhausted := by
  cases refused <;> simp

/-- An edit fails at a check, or it is done, or a counter is exhausted; which of the last two
is decided by the room that the counters have. -/
theorem edit_outcomes (command : EditCommand) (program : Program) :
    (∃ error, Refused program command error) ∨
      (command.HasRoom program ∧ ∃ result after, command.edit program = .ok result after) ∨
      ¬ command.HasRoom program ∧ ∃ after, command.edit program = .error .counterExhausted after := by
  cases command with
  | addStatement list word =>
      cases named : StatementKind.parse word with
      | error unknown => exact .inl ⟨_, .statementKind named⟩
      | ok kind =>
          cases found : program.list? list with
          | none => exact .inl ⟨_, .addedTo named found⟩
          | some items =>
              have listed : (program.list? list).isSome := by simp [found]
              right
              by_cases room : program.HasRoomFor kind
              · obtain ⟨id, slots, after, done⟩ := Edit.exists_addStatement named listed room
                refine .inl ⟨fun other namedToo => ?_, _, after, map_of_ok done⟩
                obtain rfl : kind = other := Except.ok.inj (named.symm.trans namedToo)
                exact room
              · refine .inr ⟨fun all => room (all kind named), ?_⟩
                cases outcome : Edit.addStatement list word program with
                | ok result after =>
                    exact absurd (Edit.hasRoomFor_of_addStatement named outcome) room
                | error error after =>
                    obtain rfl := Edit.error_of_addStatement named listed outcome
                    exact ⟨after, map_of_error outcome⟩
  | fillExpression id word value name =>
      cases named : ExpressionKind.parse word with
      | error unknown => exact .inl ⟨_, .expressionKind named⟩
      | ok kind =>
          by_cases finite : ∀ number, value = some number → number.isFinite = true
          · right
            cases outcome : Edit.fillExpression id word value name program with
            | ok slots after =>
                exact .inl ⟨Edit.hasRoom_of_fillExpression outcome, _, after, map_of_ok outcome⟩
            | error error after =>
                obtain rfl := Edit.error_of_fillExpression named finite outcome
                refine .inr ⟨fun room => ?_, after, map_of_error outcome⟩
                obtain ⟨slots, last, done⟩ :=
                  @Edit.exists_fillExpression program word id value name kind named finite
                    (room kind named)
                rw [outcome] at done
                cases done
          · push Not at finite
            obtain ⟨number, rfl, infinite⟩ := finite
            exact .inl ⟨_, .value named (Bool.eq_false_of_not_eq_true infinite)⟩
  | clearExpression id => exact .inr (.inl ⟨trivial, _, _, rfl⟩)
  | rename statement name =>
      cases found : program.statement? statement with
      | none => exact .inl ⟨_, .statement found⟩
      | some node =>
          by_cases assigns : node.kind = .assign
          · cases node <;> cases assigns
            exact .inr (.inl ⟨trivial, _, _, map_of_ok (Edit.rename_of_assignment found)⟩)
          · exact .inl ⟨_, .assignment found assigns⟩
  | remove list index =>
      cases found : program.list? list with
      | none => exact .inl ⟨_, .removedFrom found⟩
      | some items =>
          cases atIndex : items[index]? with
          | none => exact .inl ⟨_, .index found (List.getElem?_eq_none_iff.mp atIndex)⟩
          | some statement =>
              exact .inr (.inl ⟨trivial, _, _, map_of_ok (Edit.remove_of_found found atIndex)⟩)

/-- What an edit answers decides which of the cases it is. -/
theorem attempt_outcomes (command : EditCommand) (program : Program) :
    (∃ error, Refused program command error ∧
        command.attempt program = (.error error, program)) ∨
      ((∀ error, ¬ Refused program command error) ∧ command.HasRoom program ∧
        ∃ result after, command.attempt program = (.ok result, after)) ∨
      (∀ error, ¬ Refused program command error) ∧ ¬ command.HasRoom program ∧
        ∃ after, command.attempt program = (.error .counterExhausted, after) := by
  rcases edit_outcomes command program with ⟨error, refused⟩ | ⟨room, result, after, done⟩ |
    ⟨noRoom, after, cut⟩
  · exact .inl ⟨error, refused, refused.attempt_eq⟩
  · refine .inr (.inl ⟨fun error refused => ?_, room, result, after, attempt_of_ok done⟩)
    cases (attempt_of_ok done).symm.trans refused.attempt_eq
  · refine .inr (.inr ⟨fun error refused => ?_, noRoom, after, attempt_of_error cut⟩)
    obtain rfl : error = .counterExhausted := by
      have same := (attempt_of_error cut).symm.trans refused.attempt_eq
      exact (Except.error.inj (congrArg Prod.fst same)).symm
    exact refused.ne_counterExhausted rfl

end EditCommand

/-! ### What an edit that is done has done -/

namespace Program

variable {program built : Program}

theorem lists_registerList {items : List StatementId} {id : ListId}
    (done : registerList items program = .ok id built) :
    built.lists.entries = program.lists.entries ++ [(id, items)] := by
  obtain ⟨same, took⟩ := registerList_eq_ok done
  rw [same]
  exact Arena.entries_insert_of_unused (took.fresh id List.mem_cons_self) items

theorem lists_allocateExpression {id : ExpressionId}
    (done : allocateExpression program = .ok id built) :
    built.lists = program.lists := by
  rw [(allocateExpression_eq_ok done).1]

/-- The bodies of a default statement are new entries at the end. -/
theorem lists_newStatement {kind : StatementKind} {node : Statement}
    (done : newStatement kind program = .ok node built) :
    built.lists.entries = program.lists.entries ++ emptyEntries node.bodies := by
  cases kind with
  | assign =>
      obtain ⟨value, middle, asked, rest⟩ := grow_bind_eq_ok done
      cases rest
      simp [Statement.bodies, emptyEntries, lists_allocateExpression asked]
  | branch =>
      obtain ⟨condition, afterCondition, asked, rest⟩ := grow_bind_eq_ok done
      obtain ⟨thenBody, afterThen, askedThen, rest⟩ := grow_bind_eq_ok rest
      obtain ⟨elseBody, afterElse, askedElse, rest⟩ := grow_bind_eq_ok rest
      cases rest
      simp [Statement.bodies, emptyEntries, lists_registerList askedElse,
        lists_registerList askedThen, lists_allocateExpression asked]
  | loop =>
      obtain ⟨condition, afterCondition, asked, rest⟩ := grow_bind_eq_ok done
      obtain ⟨body, afterBody, askedBody, rest⟩ := grow_bind_eq_ok rest
      cases rest
      simp [Statement.bodies, emptyEntries, lists_registerList askedBody,
        lists_allocateExpression asked]
  | sleep =>
      obtain ⟨duration, middle, asked, rest⟩ := grow_bind_eq_ok done
      cases rest
      simp [Statement.bodies, emptyEntries, lists_allocateExpression asked]

theorem name_newStatement {kind : StatementKind} {node : Statement}
    (done : newStatement kind program = .ok node built) (name : String) (value : ExpressionId)
    (assigns : node = .assign name value) : name = defaultVariable := by
  obtain ⟨-, rfl⟩ := newStatement_eq_ok done
  subst assigns
  obtain ⟨_, _, _, rest⟩ := grow_bind_eq_ok done
  cases rest
  rfl

end Program

namespace Edit

variable {program after : Program} {list : ListId} {word : String}

theorem addStatement_changes {id : StatementId} {slots : Slots}
    (done : addStatement list word program = .ok (id, slots) after) :
    EditCommand.ChangesOnly program (.addStatement list word) (.added id slots) after := by
  obtain ⟨kind, node, built, registered, named, listed, grown, entered, rfl, rfl⟩ :=
    addStatement_eq_ok done
  obtain ⟨reserved, rfl⟩ := Program.newStatement_eq_ok grown
  obtain ⟨same, took⟩ := Program.registerStatement_eq_ok entered
  obtain ⟨items, found⟩ := Option.isSome_iff_exists.mp listed
  have apart : list ∉ node.bodies := fun isBody =>
    reserved.tookBodies.fresh list isBody (Arena.mem_keys_of_find? found)
  have foundStill : registered.lists.find? list = some items := by
    rw [same]
    exact (reserved.list? list).trans (by rw [if_neg apart, found])
  have appended : registered.append list id =
      { registered with lists := registered.lists.insert list (items ++ [id]) } := by
    simp only [Program.append, Program.list?, foundStill]
  have statements : registered.statements.entries = program.statements.entries ++ [(id, node)] := by
    rw [same, ← reserved.statements]
    exact Arena.entries_insert_of_unused (took.fresh id List.mem_cons_self) node
  have lists : (registered.lists.insert list (items ++ [id])).entries =
      Arena.changedAt list (· ++ [id]) program.lists.entries ++ emptyEntries node.bodies := by
    -- The new bodies stand behind all entries, and none of them is the list.
    have bodies : Arena.changedAt list (· ++ [id]) (emptyEntries node.bodies) =
        emptyEntries node.bodies := by
      apply Arena.changedAt_eq_self
      intro value member
      obtain ⟨body, isBody, equal⟩ := List.mem_map.mp member
      cases equal
      exact absurd isBody apart
    rw [Arena.entries_insert_of_found foundStill (· ++ [id]), same]
    rw [Program.lists_newStatement grown, Arena.changedAt_append, bodies]
  rw [appended]
  refine .added named listed (Program.name_newStatement grown) statements lists
    (by rw [← reserved.expressions, same]) ?_ ?_ ?_
  · refine .one ?_ ?_
    · simpa only [Supply.keys, reserved.statements] using took.fresh id List.mem_cons_self
    · simpa only [Supply.count, reserved.statementCount] using took.numbered id List.mem_cons_self
  · exact reserved.tookBodies.congr (by rw [same]; rfl)
  · exact reserved.tookHoles.congr (by rw [same]; rfl)

theorem fillExpression_changes {id : ExpressionId} {value : Option Float} {name : Option String}
    {slots : Slots} (done : fillExpression id word value name program = .ok slots after) :
    EditCommand.ChangesOnly program (.fillExpression id word value name) (.filled slots) after := by
  obtain ⟨kind, node, built, named, -, grown, rfl, rfl⟩ := fillExpression_eq_ok done
  obtain ⟨rfl, same, -⟩ := Program.newExpression_takes grown
  rw [← operands_adjust value name]
  rw [← kind_adjust value name] at named
  refine .filled named ?_ ?_ ?_
  · intro known
    obtain ⟨old, found⟩ := Option.isSome_iff_exists.mp ((Arena.mem_keys_iff _ _).mp known)
    rw [same]
    exact Arena.entries_insert_of_found found fun _ => adjust value name node
  · intro unused
    rw [same]
    exact Arena.entries_insert_of_unused unused _
  · rw [same]
    rfl

theorem rename_changes {statement : StatementId} {name : String} {result : Unit}
    (done : rename statement name program = .ok result after) :
    EditCommand.ChangesOnly program (.rename statement name) .renamed after := by
  obtain ⟨old, value, found, rfl⟩ := rename_eq_ok done
  exact .renamed found (Arena.entries_insert_of_found found fun _ => .assign name value) rfl

theorem remove_changes {index : Nat} {statement : StatementId}
    (done : remove list index program = .ok statement after) :
    EditCommand.ChangesOnly program (.remove list index) (.removed statement) after := by
  cases found : program.list? list with
  | none =>
      rw [remove_of_missing found] at done
      cases done
  | some items =>
      cases atIndex : items[index]? with
      | none =>
          rw [remove_of_short found (List.getElem?_eq_none_iff.mp atIndex)] at done
          cases done
      | some removed =>
          rw [remove_of_found found atIndex] at done
          cases done
          exact .removed found atIndex
            (Arena.entries_insert_of_found found (·.eraseIdx index)) rfl

end Edit

namespace EditCommand

theorem changes_of_ok {command : EditCommand} {program after : Program} {result : EditResult}
    (done : command.edit program = .ok result after) :
    ChangesOnly program command result after := by
  cases command with
  | addStatement list word =>
      obtain ⟨_, added, rfl⟩ := map_eq_ok done
      exact Edit.addStatement_changes added
  | fillExpression id word value name =>
      obtain ⟨_, filled, rfl⟩ := map_eq_ok done
      exact Edit.fillExpression_changes filled
  | clearExpression id =>
      obtain ⟨_, cleared, rfl⟩ := map_eq_ok done
      cases cleared
      exact .cleared rfl rfl
  | rename statement name =>
      obtain ⟨_, renamed, rfl⟩ := map_eq_ok done
      exact Edit.rename_changes renamed
  | remove list index =>
      obtain ⟨_, removed, rfl⟩ := map_eq_ok done
      exact Edit.remove_changes removed

/-- Taking out what was just put at the end of a list gives the list back. -/
theorem ChangesOnly.remove_added {program after : Program} {list : ListId} {word : String}
    {id : StatementId} {slots : Slots} {items : List StatementId}
    (added : ChangesOnly program (.addStatement list word) (.added id slots) after)
    (found : program.list? list = some items) :
    ∃ final, (EditCommand.remove list items.length).attempt after = (.ok (.removed id), final) ∧
      final.list? list = some items ∧
      final.lists.entries = program.lists.entries ++ emptyEntries slots.lists ∧
      final = { after with lists := final.lists } := by
  cases added with
  | @added _ _ _ node _ _ _ _ _ lists _ _ _ _ =>
      have longer : after.list? list = some (items ++ [id]) := by
        apply (Arena.mem_entries_iff _ _ _).mp
        rw [lists]
        apply List.mem_append_left
        exact List.mem_map.mpr ⟨(list, items), (Arena.mem_entries_iff _ _ _).mpr found, by simp⟩
      have shortened : (items ++ [id]).eraseIdx items.length = items := by
        simp [List.eraseIdx_append_of_length_le]
      have done := Edit.remove_of_found longer List.getElem?_concat_length
      refine ⟨_, attempt_of_ok (map_of_ok done), ?_, ?_, rfl⟩
      · rw [Program.list?, Arena.find?_insert, if_pos rfl, shortened]
      · -- At the list the two changes undo each other, and an empty body has nothing to take out.
        have before : Arena.changedAt list (fun value => (value ++ [id]).eraseIdx items.length)
            program.lists.entries = program.lists.entries := by
          apply Arena.changedAt_eq_self
          intro value member
          have same := (Arena.mem_entries_iff _ _ _).mp member
          obtain rfl : items = value := Option.some.inj (found.symm.trans same)
          exact shortened
        have bodies : Arena.changedAt list (·.eraseIdx items.length) (emptyEntries node.bodies) =
            emptyEntries node.bodies := by
          apply Arena.changedAt_eq_self
          intro value member
          obtain ⟨body, -, equal⟩ := List.mem_map.mp member
          cases equal
          rfl
        have entries := Arena.entries_insert_of_found longer (·.eraseIdx items.length)
        rw [lists, Arena.changedAt_append, Arena.changedAt_changedAt, before, bodies] at entries
        exact entries

/-- In every program and for all arguments, an edit is refused exactly if one of its checks fails,
with the error of the first that does, and then the program is exactly as it was.  If no check
fails, the edit is done when the counters have room for the identifiers it takes, and is cut off
at an exhausted counter when they have not; renaming, removing and clearing take none.  An edit
that is done changes only the entries it names.  And what was added to a list is taken out again
at the old length of the list, which gives the list back. -/
theorem edits_are_atomic_and_local (program : Program) :
    (∀ command error after, error ≠ .counterExhausted →
      (attempt command program = (.error error, after) ↔
        Refused program command error ∧ after = program)) ∧
    (∀ command, (∃ result after, attempt command program = (.ok result, after)) ↔
      (∀ error, ¬ Refused program command error) ∧ command.HasRoom program) ∧
    (∀ command, (∃ after, attempt command program = (.error .counterExhausted, after)) ↔
      (∀ error, ¬ Refused program command error) ∧ ¬ command.HasRoom program) ∧
    (∀ command result after, attempt command program = (.ok result, after) →
      ChangesOnly program command result after) ∧
    ∀ list word id slots after items, program.list? list = some items →
      (EditCommand.addStatement list word).attempt program = (.ok (.added id slots), after) →
      ∃ final, (EditCommand.remove list items.length).attempt after = (.ok (.removed id), final) ∧
        final.list? list = some items ∧
        final.lists.entries = program.lists.entries ++ emptyEntries slots.lists ∧
        final = { after with lists := final.lists } := by
  have changes (command : EditCommand) (result : EditResult) (after : Program)
      (done : attempt command program = (.ok result, after)) :
      ChangesOnly program command result after := by
    cases outcome : command.edit program with
    | error error last =>
        rw [attempt_of_error outcome] at done
        cases done
    | ok given last =>
        rw [attempt_of_ok outcome] at done
        cases done
        exact changes_of_ok outcome
  refine ⟨?_, ?_, ?_, changes, ?_⟩
  · intro command error after plain
    constructor
    · intro failed
      rcases attempt_outcomes command program with ⟨reason, refused, answered⟩ |
        ⟨-, -, result, last, answered⟩ | ⟨-, -, last, answered⟩ <;>
        rw [answered] at failed <;> cases failed
      · exact ⟨refused, rfl⟩
      · exact absurd rfl plain
    · rintro ⟨refused, rfl⟩
      exact refused.attempt_eq
  · intro command
    rcases attempt_outcomes command program with ⟨reason, refused, answered⟩ |
      ⟨unrefused, room, done⟩ | ⟨-, noRoom, last, answered⟩
    · simp only [answered, Prod.mk.injEq, reduceCtorEq, false_and, exists_false, false_iff, not_and]
      exact fun unrefused => absurd refused (unrefused reason)
    · exact iff_of_true done ⟨unrefused, room⟩
    · simp [answered, noRoom]
  · intro command
    rcases attempt_outcomes command program with ⟨reason, refused, answered⟩ |
      ⟨-, room, result, last, answered⟩ | ⟨unrefused, noRoom, cut⟩
    · refine iff_of_false ?_ fun both => both.1 reason refused
      rintro ⟨after, cut⟩
      cases answered.symm.trans cut
      exact refused.ne_counterExhausted rfl
    · simp [answered, room]
    · exact iff_of_true cut ⟨unrefused, noRoom⟩
  · intro list word id slots after items found done
    exact (changes _ _ _ done).remove_added found

end EditCommand

namespace Program

/-- The loop is no assignment and is not renamed.  An assignment that is put into its body is, and
it is taken out again at the old length of the body. -/
theorem laggingLoop_edited :
    (EditCommand.rename "0" "y").attempt laggingLoop =
        (.error (.notAnAssignment "0"), laggingLoop) ∧
      ∃ slots after renamed final,
        (EditCommand.addStatement "0" "assign").attempt laggingLoop =
          (.ok (.added "1" slots), after) ∧
        (EditCommand.rename "1" "y").attempt after = (.ok .renamed, renamed) ∧
        EditCommand.ChangesOnly after (.rename "1" "y") .renamed renamed ∧
        (EditCommand.remove "0" 0).attempt after = (.ok (.removed "1"), final) ∧
        final.list? "0" = some [] := by
  obtain ⟨refusals, -, -, -, restores⟩ := EditCommand.edits_are_atomic_and_local laggingLoop
  have loop : laggingLoop.statement? "0" = some (.loop "0" "0") := by decide
  have body : laggingLoop.list? "0" = some [] := by decide
  constructor
  · apply (refusals _ _ _ (by simp)).mpr
    exact ⟨.assignment loop (by decide), rfl⟩
  · obtain ⟨slots, after, value, done, assigns⟩ : ∃ slots after value,
        (EditCommand.addStatement "0" "assign").attempt laggingLoop =
          (.ok (.added "1" slots), after) ∧ after.statement? "1" = some (.assign "x" value) :=
      ⟨_, _, _, by with_unfolding_all rfl, by with_unfolding_all rfl⟩
    obtain ⟨final, removed, restored, -, -⟩ := restores "0" "assign" "1" slots after [] body done
    obtain ⟨-, succeeds, -, changes, -⟩ := EditCommand.edits_are_atomic_and_local after
    have unrefused : ∀ error, ¬ EditCommand.Refused after (.rename "1" "y") error := by
      intro error refused
      cases refused with
      | statement missing => simp [assigns] at missing
      | assignment found other =>
          rw [assigns] at found
          cases found
          exact other rfl
    obtain ⟨result, renamed, answered⟩ := (succeeds (.rename "1" "y")).mpr ⟨unrefused, trivial⟩
    have changed := changes _ _ _ answered
    cases changed with
    | renamed found entries same =>
        exact ⟨slots, after, renamed, final, done, answered, .renamed found entries same, removed,
          restored⟩

end Program

end BlockStage

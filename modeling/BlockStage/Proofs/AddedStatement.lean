import BlockStage.Proofs.ProgramPlaces

/-! # What a new statement shares with the program

A program that was read from a text may name identifiers that lead nowhere, and its counters
may lag behind its tables.  Identifiers that are in use as keys are passed over when a
statement is added, so nothing that is stored is ever shared with it.  A name that leads
nowhere is no key, though, and if it renders a number that the counter has still to reach, the
new statement, one of its slots or one of its bodies may come to stand under it.  This file
says exactly when a statement can be added and which places name what was added.
-/

namespace BlockStage

namespace Supply

variable {supply : Supply} {program after : Program}

/-- The identifier may still be handed out: it is no key, and the counter has still to reach
its number. -/
def Ahead (supply : Supply) (program : Program) (id : String) : Prop :=
  id ∉ supply.keys program ∧ Numbered (supply.count program) lastCount id

/-- As many identifiers may still be handed out. -/
def HasRoom (supply : Supply) (program : Program) (amount : Nat) : Prop :=
  ∃ ids : List String, amount ≤ ids.length ∧ ids.Nodup ∧ ∀ id ∈ ids, supply.Ahead program id

theorem Took.ahead {ids : List String} (took : supply.Took program after ids) {id : String}
    (taken : id ∈ ids) : supply.Ahead program id := by
  have lastIsLast : supply.count after ≤ lastCount :=
    UInt64.le_iff_toNat_le.mpr (Nat.le_of_lt_succ (supply.count after).toNat_lt)
  exact ⟨took.fresh id taken, (took.numbered id taken).mono (UInt64.le_refl _) lastIsLast⟩

theorem Took.hasRoom {ids : List String} (took : supply.Took program after ids) :
    supply.HasRoom program ids.length :=
  ⟨ids, Nat.le_refl _, took.nodup, fun _ taken => took.ahead taken⟩

/-- The counter has passed no free identifier but these. -/
def SkipsNone (supply : Supply) (program after : Program) (ids : List String) : Prop :=
  ∀ other, other ∉ supply.keys program →
    Numbered (supply.count program) (supply.count after) other → other ∈ ids

/-- An allocator hands out the next free identifier and leaves the keys alone. -/
theorem allocate_skipsNone {id : String} (granted : supply.allocate program = .ok id after) :
    supply.keys after = supply.keys program ∧ supply.SkipsNone program after [id] := by
  -- The three allocators look into three different tables.
  cases supply
  all_goals
    simp only [allocate, Program.allocateExpression, Program.allocateStatement,
      Program.allocateList] at granted
    split at granted <;> cases granted
    rename_i count took
    obtain ⟨number, named, -, -, rises, successor, passed⟩ := takeId_eq_some took
    refine ⟨rfl, ?_⟩
    rintro other unused ⟨candidate, rfl, above, below⟩
    rw [List.mem_singleton, named]
    by_contra differs
    have apart : candidate.toNat ≠ number.toNat :=
      fun equal => differs (congrArg countId (UInt64.toNat_inj.mp equal))
    have notLast : number ≠ lastCount := by
      rintro rfl
      exact absurd rises (by rw [successor]; decide)
    have step := toNat_add_one_of_ne_lastCount notLast
    have early : candidate < number := by
      rw [Supply.count, successor, UInt64.lt_iff_toNat_lt, step] at below
      rw [UInt64.lt_iff_toNat_lt]
      omega
    have isTaken := passed candidate above early
    rw [(Arena.contains_eq_false_iff _ _).mpr unused] at isTaken
    cases isTaken

/-- An identifier that is handed out takes up the room of one: all others that were ahead of
the counter still are. -/
theorem HasRoom.ahead_of_allocate {amount : Nat} {id : String}
    (room : supply.HasRoom program (amount + 1))
    (granted : supply.allocate program = .ok id after) :
    ∃ ids : List String, amount ≤ ids.length ∧ ids.Nodup ∧
      ∀ other ∈ ids, other ≠ id ∧ supply.Ahead after other := by
  obtain ⟨known, skips⟩ := allocate_skipsNone granted
  obtain ⟨ids, enough, nodup, ahead⟩ := room
  refine ⟨ids.erase id, ?_, nodup.erase _, ?_⟩
  · rw [List.length_erase]
    split <;> omega
  · intro other member
    obtain ⟨differs, isOne⟩ := nodup.mem_erase_iff.mp member
    obtain ⟨unused, value, named, reached, below⟩ := ahead other isOne
    refine ⟨differs, known ▸ unused, value, named, UInt64.not_lt.mp fun early => ?_, below⟩
    exact differs (List.mem_singleton.mp (skips other unused ⟨value, named, reached, early⟩))

theorem HasRoom.exists_ahead {amount : Nat} (room : supply.HasRoom program (amount + 1)) :
    ∃ id, supply.Ahead program id := by
  obtain ⟨ids, enough, -, ahead⟩ := room
  cases ids with
  | nil => simp at enough
  | cons id rest => exact ⟨id, ahead id List.mem_cons_self⟩

end Supply

namespace Program

variable {program : Program}

/-- As long as an identifier may still be handed out, one is. -/
theorem exists_takeId {taken : String → Bool} {count : UInt64} {id : String}
    (free : taken id = false) (numbered : Numbered count lastCount id) :
    ∃ first next, takeId taken count = (some first, next) := by
  fun_induction takeId taken count with
  | case1 =>
      obtain ⟨number, -, above, below⟩ := numbered
      exact absurd above (UInt64.not_le.mpr below)
  | case2 count notLast isTaken ih =>
      obtain ⟨number, rfl, above, below⟩ := numbered
      have apart : number ≠ count := by
        rintro rfl
        rw [free] at isTaken
        cases isTaken
      have differs : number.toNat ≠ count.toNat := fun equal => apart (UInt64.toNat_inj.mp equal)
      have step := toNat_add_one_of_ne_lastCount notLast
      rw [UInt64.le_iff_toNat_le] at above
      exact ih ⟨number, rfl, UInt64.le_iff_toNat_le.mpr (by omega), below⟩
  | case3 count notLast free => exact ⟨_, _, rfl⟩

end Program

namespace Supply

variable {supply : Supply} {program : Program} {amount : Nat}

theorem HasRoom.exists_allocate (room : supply.HasRoom program (amount + 1)) :
    ∃ id after, supply.allocate program = .ok id after := by
  obtain ⟨id, unused, numbered⟩ := room.exists_ahead
  -- The three allocators look into three different tables.
  cases supply
  all_goals
    obtain ⟨first, next, took⟩ := Program.exists_takeId
      ((Arena.contains_eq_false_iff _ _).mpr unused) numbered
    simp only [count] at took
    simp only [allocate, Program.allocateExpression, Program.allocateStatement,
      Program.allocateList, took]
    exact ⟨first, _, rfl⟩

end Supply

namespace Program

variable {program : Program}

/-- What is done behind a part that is through. -/
theorem bind_of_ok {ε α β : Type} {first : EStateM ε Program α} {next : α → EStateM ε Program β}
    {value : α} {middle : Program} (done : first program = .ok value middle) :
    (first >>= next) program = next value middle := by
  change EStateM.bind first next program = next value middle
  rw [EStateM.bind, done]

theorem exists_registerStatement (node : Statement) (room : Supply.statements.HasRoom program 1) :
    ∃ id after, registerStatement node program = .ok id after := by
  obtain ⟨id, middle, asked⟩ := room.exists_allocate
  have allocated : allocateStatement program = .ok id middle := asked
  exact ⟨id, _, bind_of_ok allocated⟩

/-- A list that is stored takes up the room of one identifier. -/
theorem exists_registerList {amount : Nat} (room : Supply.lists.HasRoom program (amount + 1)) :
    ∃ id after, registerList [] program = .ok id after ∧ Supply.lists.HasRoom after amount := by
  obtain ⟨first, middle, asked⟩ := room.exists_allocate
  have allocated : allocateList program = .ok first middle := asked
  obtain ⟨ids, enough, nodup, ahead⟩ := room.ahead_of_allocate asked
  refine ⟨first, { middle with lists := middle.lists.insert first [] }, bind_of_ok allocated,
    ids, enough, nodup, ?_⟩
  intro other member
  obtain ⟨differs, unused, numbered⟩ := ahead other member
  refine ⟨fun isKey => ?_, numbered⟩
  simp only [Supply.keys, Arena.mem_keys_iff, Arena.find?_insert, if_neg differs] at isKey unused
  exact unused isKey

end Program

/-- How many bodies a statement of the kind has. -/
def StatementKind.bodyCount : StatementKind → Nat
  | .assign => 0
  | .branch => 2
  | .loop => 1
  | .sleep => 0

theorem Statement.length_bodies (node : Statement) : node.bodies.length = node.kind.bodyCount := by
  cases node <;> rfl

theorem Statement.length_expressions (node : Statement) : node.expressions.length = 1 := by
  cases node <;> rfl

namespace Program

variable {program : Program}

/-- No counter is exhausted before a statement of the kind has all its identifiers. -/
structure HasRoomFor (program : Program) (kind : StatementKind) : Prop where
  statement : Supply.statements.HasRoom program 1
  hole : Supply.expressions.HasRoom program 1
  bodies : Supply.lists.HasRoom program kind.bodyCount

theorem exists_newStatement {kind : StatementKind} (room : program.HasRoomFor kind) :
    ∃ node built, newStatement kind program = .ok node built := by
  obtain ⟨hole, middle, asked⟩ := room.hole.exists_allocate
  have allocated : allocateExpression program = .ok hole middle := asked
  obtain ⟨same, -⟩ := allocateExpression_eq_ok allocated
  have bodies : Supply.lists.HasRoom middle kind.bodyCount := by
    rw [same]
    exact room.bodies
  cases kind with
  | assign => exact ⟨_, _, bind_of_ok allocated⟩
  | branch =>
      obtain ⟨thenBody, afterThen, askedThen, left⟩ := exists_registerList bodies
      obtain ⟨elseBody, afterElse, askedElse, -⟩ := exists_registerList left
      exact ⟨_, _, (bind_of_ok allocated).trans
        ((bind_of_ok askedThen).trans (bind_of_ok askedElse))⟩
  | loop =>
      obtain ⟨body, afterBody, askedBody, -⟩ := exists_registerList bodies
      exact ⟨_, _, (bind_of_ok allocated).trans (bind_of_ok askedBody)⟩
  | sleep => exact ⟨_, _, bind_of_ok allocated⟩

end Program

namespace Edit

variable {program : Program} {list : ListId} {word : String} {kind : StatementKind}

theorem grow_of_ok {α : Type} {growth : Grow α} {value : α} {after : Program}
    (done : growth program = .ok value after) : grow growth program = .ok value after := by
  rw [grow, done]

theorem kindOf_ok {α : Type} {parsed : Except UnknownKind α} {kind : α} (named : parsed = .ok kind)
    (program : Program) : kindOf parsed program = .ok kind program := by
  rw [named]
  rfl

/-- A statement of a known kind can be added to a list that exists as long as there is room. -/
theorem exists_addStatement (named : StatementKind.parse word = .ok kind)
    (listed : (program.list? list).isSome) (room : program.HasRoomFor kind) :
    ∃ id slots after, addStatement list word program = .ok (id, slots) after := by
  obtain ⟨node, built, grown⟩ := Program.exists_newStatement room
  obtain ⟨reserved, -⟩ := Program.newStatement_eq_ok grown
  have left : Supply.statements.HasRoom built 1 := by
    have statements := room.statement
    simpa only [Supply.HasRoom, Supply.Ahead, Supply.keys, Supply.count, reserved.statements,
      reserved.statementCount] using statements
  obtain ⟨id, registered, entered⟩ := Program.exists_registerStatement node left
  obtain ⟨items, found⟩ := Option.isSome_iff_exists.mp listed
  have parsed := kindOf_ok named program
  refine ⟨id, ⟨node.expressions, node.bodies⟩, registered.append list id, ?_⟩
  have got : (get : Edit Program) program = .ok program program := rfl
  refine (Program.bind_of_ok parsed).trans ((Program.bind_of_ok got).trans ?_)
  simp only [found, Option.isNone_some, Bool.false_eq_true, if_false]
  exact (Program.bind_of_ok (grow_of_ok grown)).trans (Program.bind_of_ok (grow_of_ok entered))

/-- A statement that was added has left the room it needed. -/
theorem hasRoomFor_of_addStatement {id : StatementId} {slots : Slots} {after : Program}
    (named : StatementKind.parse word = .ok kind)
    (done : addStatement list word program = .ok (id, slots) after) :
    program.HasRoomFor kind := by
  obtain ⟨node, namedToo, -, added⟩ := addStatement_adds done
  obtain rfl : kind = node.kind := Except.ok.inj (named.symm.trans namedToo)
  have hole := added.tookHoles.hasRoom
  have bodies := added.tookBodies.hasRoom
  rw [node.length_expressions] at hole
  rw [node.length_bodies] at bodies
  exact ⟨added.tookStatement.hasRoom, hole, bodies⟩

/-- Only an exhausted counter can keep a statement of a known kind out of a list that exists. -/
theorem error_of_addStatement {error : EditError} {after : Program}
    (named : StatementKind.parse word = .ok kind) (listed : (program.list? list).isSome)
    (refused : addStatement list word program = .error error after) :
    error = .counterExhausted := by
  have parsed := kindOf_ok named program
  rcases bind_eq_error refused with unknown | ⟨_, _, parsedToo, rest⟩
  · rw [parsed] at unknown
    cases unknown
  rw [parsed] at parsedToo
  cases parsedToo
  rcases bind_eq_error rest with got | ⟨_, _, got, rest⟩ <;> cases got
  obtain ⟨items, found⟩ := Option.isSome_iff_exists.mp listed
  simp only [found, Option.isNone_some, Bool.false_eq_true, if_false] at rest
  rcases bind_eq_error rest with cut | ⟨_, _, _, rest⟩
  · exact (grow_eq_error cut).1
  rcases bind_eq_error rest with cut | ⟨_, _, _, rest⟩
  · exact (grow_eq_error cut).1
  · cases rest

end Edit

namespace Program

/-- The program names nothing that may still be handed out. -/
structure NamesNoneAhead (program : Program) : Prop where
  statement : ∀ {list index id}, program.statementAt? list index = some id →
    ¬ Supply.statements.Ahead program id
  body : ∀ {statement slot id}, program.bodyAt? statement slot = some id →
    ¬ Supply.lists.Ahead program id
  expression : ∀ {place id}, program.expressionAt? place = some id →
    ¬ Supply.expressions.Ahead program id

/-- What adding a statement of a known kind to an existing list does in every program.  It is
cut off exactly if the counters leave no room for its identifiers.  Otherwise the statement is
stored with the slots that are reported; its identifier, its slots and its bodies were no keys
before, and it is named at the end of the list.  All other places name what they named before:
they share nothing with it but identifiers that led nowhere and that the counters had still to
reach.  Where none of these was named, the new identifier stands at one position, and no other
statement or expression names one of its slots or bodies. -/
theorem added_statement_shares_nothing_stored (program : Program) (list : ListId)
    (items : List StatementId) (word : String) (kind : StatementKind)
    (found : program.list? list = some items) (named : StatementKind.parse word = .ok kind) :
    (¬ program.HasRoomFor kind →
        ∃ after, Edit.addStatement list word program = .error .counterExhausted after) ∧
      (program.HasRoomFor kind → ∃ (id : StatementId) (node : Statement) (after : Program),
        Edit.addStatement list word program =
            .ok (id, ⟨node.expressions, node.bodies⟩) after ∧
          node.kind = kind ∧ after.statement? id = some node ∧
          Supply.statements.Ahead program id ∧
          (∀ hole ∈ node.expressions, Supply.expressions.Ahead program hole) ∧
          (∀ body ∈ node.bodies, Supply.lists.Ahead program body) ∧
          (∀ place index statement, after.statementAt? place index = some statement ↔
            program.statementAt? place index = some statement ∨
              place = list ∧ index = items.length ∧ statement = id) ∧
          (∀ place expression, after.expressionAt? place = some expression ↔
            program.expressionAt? place = some expression ∨
              ∃ slot, place = .inStatement id slot ∧
                node.expressions[slot]? = some expression) ∧
          (∀ statement slot body, after.bodyAt? statement slot = some body ↔
            program.bodyAt? statement slot = some body ∨
              statement = id ∧ node.bodies[slot]? = some body) ∧
          (program.NamesNoneAhead →
            (∀ place index, after.statementAt? place index = some id ↔
              place = list ∧ index = items.length) ∧
            (∀ place, ∀ hole ∈ node.expressions, after.expressionAt? place = some hole →
              ∃ slot, place = .inStatement id slot) ∧
            ∀ statement slot, ∀ body ∈ node.bodies,
              after.bodyAt? statement slot = some body → statement = id)) := by
  have listed : (program.list? list).isSome := by simp [found]
  constructor
  · intro noRoom
    cases outcome : Edit.addStatement list word program with
    | ok result after => exact absurd (Edit.hasRoomFor_of_addStatement named outcome) noRoom
    | error error after =>
        obtain rfl := Edit.error_of_addStatement named listed outcome
        exact ⟨after, rfl⟩
  · intro room
    obtain ⟨id, slots, after, done⟩ := Edit.exists_addStatement named listed room
    obtain ⟨node, namedToo, rfl, added⟩ := Edit.addStatement_adds done
    have sameKind : node.kind = kind := Except.ok.inj (namedToo.symm.trans named)
    have idAhead := added.tookStatement.ahead List.mem_cons_self
    have holesAhead : ∀ hole ∈ node.expressions, Supply.expressions.Ahead program hole :=
      fun hole => added.tookHoles.ahead
    have bodiesAhead : ∀ body ∈ node.bodies, Supply.lists.Ahead program body :=
      fun body => added.tookBodies.ahead
    refine ⟨id, node, after, done, sameKind, by simp [added.statement?], idAhead, holesAhead,
      bodiesAhead, added.statementAt?_iff found, added.expressionAt?_iff, added.bodyAt?_iff, ?_⟩
    intro none
    refine ⟨?_, ?_, ?_⟩
    · intro place index
      rw [added.statementAt?_iff found]
      constructor
      · rintro (before | ⟨here, atEnd, -⟩)
        · exact absurd idAhead (none.statement before)
        · exact ⟨here, atEnd⟩
      · rintro ⟨here, atEnd⟩
        exact Or.inr ⟨here, atEnd, rfl⟩
    · intro place hole isHole isNamed
      rcases (added.expressionAt?_iff _ _).mp isNamed with before | ⟨slot, here, -⟩
      · exact absurd (holesAhead hole isHole) (none.expression before)
      · exact ⟨slot, here⟩
    · intro statement slot body isBody owns
      rcases (added.bodyAt?_iff _ _ _).mp owns with before | ⟨here, -⟩
      · exact absurd (bodiesAhead body isBody) (none.body before)
      · exact here

/-- A loop whose body is in use as a key that the counters have not reached, and whose
condition is a hole behind the counter. -/
def laggingLoop : Program where
  statements := Arena.empty.insert "0" (.loop "0" "0")
  expressions := Arena.empty
  lists := (Arena.empty.insert entryList ["0"]).insert "0" []
  statementCount := 0
  expressionCount := 1
  listCount := 0

theorem laggingLoop_namesNoneAhead : laggingLoop.NamesNoneAhead := by
  have storedStatement (id : StatementId) :
      laggingLoop.statement? id = if id = "0" then some (.loop "0" "0") else none :=
    Arena.find?_insert _ _ _ _
  have storedList (id : ListId) : laggingLoop.list? id =
      if id = "0" then some [] else if id = entryList then some ["0"] else none := by
    rw [list?, laggingLoop, Arena.find?_insert, Arena.find?_insert, Arena.find?_empty]
  have known : Supply.statements.keys laggingLoop = ["0"] := rfl
  have knownLists : Supply.lists.keys laggingLoop = [entryList, "0"] := rfl
  refine { statement := ?_, body := ?_, expression := ?_ }
  · rintro list index id isListed ⟨unused, -⟩
    obtain ⟨items, found, atIndex⟩ := statementAt?_eq_some_iff.mp isListed
    rw [storedList] at found
    split at found
    · cases found
      cases atIndex
    · split at found <;> cases found
      rw [known] at unused
      exact unused (List.mem_of_getElem? atIndex)
  · rintro statement slot id owns ⟨unused, -⟩
    obtain ⟨node, found, atSlot⟩ := bodyAt?_eq_some_iff.mp owns
    rw [storedStatement] at found
    split at found <;> cases found
    obtain rfl := List.mem_singleton.mp (List.mem_of_getElem? atSlot)
    rw [knownLists] at unused
    simp at unused
  · rintro place id isNamed ⟨-, number, same, above, -⟩
    have isZero : id = countId 0 := by
      cases place with
      | inExpression expression slot =>
          rw [expressionAt?, expression?, laggingLoop, Arena.find?_empty] at isNamed
          cases isNamed
      | inStatement statement slot =>
          rw [expressionAt?, storedStatement] at isNamed
          split at isNamed
          · exact List.mem_singleton.mp (List.mem_of_getElem? isNamed)
          · cases isNamed
    obtain rfl := countId_injective (same.symm.trans isZero)
    revert above
    decide

/-- A branch is put into the loop under identifiers that are all its own. -/
theorem laggingLoop_shares_nothing :
    laggingLoop.HasRoomFor .branch ∧ laggingLoop.NamesNoneAhead ∧
      ∃ (id : StatementId) (node : Statement) (after : Program),
        Edit.addStatement "0" "if" laggingLoop = .ok (id, ⟨node.expressions, node.bodies⟩) after ∧
          node.kind = .branch ∧
          (∀ place index, after.statementAt? place index = some id ↔ place = "0" ∧ index = 0) ∧
          ∀ statement slot, ∀ body ∈ node.bodies,
            after.bodyAt? statement slot = some body → statement = id := by
  have room : laggingLoop.HasRoomFor .branch := by
    refine ⟨⟨["1"], by decide, by decide, ?_⟩, ⟨["1"], by decide, by decide, ?_⟩,
      ⟨["1", "2"], by decide, by decide, ?_⟩⟩
    · simp only [List.forall_mem_singleton]
      exact ⟨by decide, 1, by decide, by decide, by decide⟩
    · simp only [List.forall_mem_singleton]
      exact ⟨by decide, 1, by decide, by decide, by decide⟩
    · simp only [List.forall_mem_cons]
      exact ⟨⟨by decide, 1, by decide, by decide, by decide⟩,
        ⟨by decide, 2, by decide, by decide, by decide⟩, by simp⟩
  obtain ⟨-, added⟩ := added_statement_shares_nothing_stored laggingLoop "0" [] "if" .branch
    (by decide) (by decide)
  obtain ⟨id, node, after, done, isBranch, -, -, -, -, -, -, -, apart⟩ := added room
  obtain ⟨once, -, bodies⟩ := apart laggingLoop_namesNoneAhead
  exact ⟨room, laggingLoop_namesNoneAhead, id, node, after, done, isBranch, once, bodies⟩

/-- A loop that names a condition and a body that are not stored, in an entry list that names
a statement that is not. -/
def danglingLoop : Program where
  statements := Arena.ofEntries [("t", .loop "0" "0")]
  expressions := Arena.empty
  lists := Arena.ofEntries [(entryList, ["t", "0"])]
  statementCount := 0
  expressionCount := 0
  listCount := 0

/-- The program can be read from a text, and a loop that is added to it takes over all three
names: it is listed twice, and its condition and its body are also those of the other loop. -/
theorem danglingLoop_shares_all :
    (∃ text, decode text = .ok danglingLoop) ∧
      ∃ id hole body after,
        Edit.addStatement entryList "while" danglingLoop = .ok (id, ⟨[hole], [body]⟩) after ∧
          after.statementAt? entryList 1 = some id ∧ after.statementAt? entryList 2 = some id ∧
          id ≠ "t" ∧ after.expressionAt? (.inStatement "t" 0) = some hole ∧
          after.bodyAt? "t" 0 = some body := by
  constructor
  · obtain ⟨text, written⟩ := (exists_encode_iff danglingLoop).mpr rfl
    exact ⟨text, decode_of_encode (Or.inl written)⟩
  · have shared : (match Edit.addStatement entryList "while" danglingLoop with
        | .ok (id, slots) after => id == "0" && slots == ⟨["0"], ["0"]⟩ &&
            after.statementAt? entryList 1 == some "0" &&
            after.statementAt? entryList 2 == some "0" &&
            after.expressionAt? (.inStatement "t" 0) == some "0" &&
            after.bodyAt? "t" 0 == some "0"
        | .error _ _ => false) = true := by
      decide +kernel
    cases outcome : Edit.addStatement entryList "while" danglingLoop with
    | error error after =>
        rw [outcome] at shared
        cases shared
    | ok result after =>
        obtain ⟨id, slots⟩ := result
        rw [outcome] at shared
        simp only [Bool.and_eq_true, beq_iff_eq] at shared
        obtain ⟨⟨⟨⟨⟨rfl, rfl⟩, first⟩, second⟩, condition⟩, body⟩ := shared
        exact ⟨"0", "0", "0", after, rfl, first, second, by decide, condition, body⟩

end Program

end BlockStage

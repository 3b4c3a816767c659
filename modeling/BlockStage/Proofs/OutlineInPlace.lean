import BlockStage.Proofs.UnfoldedOutline

/-!
# Writing an outline in place

The outline is defined along the way from the root.  A machine that writes it does not carry
this way with it: it keeps one set of open lists and, for each expression it writes, one set of
open expressions.  An identifier is added when its lines or its text are begun and taken away
when they are finished, and the same set serves a whole row of statements, both bodies of a
branch and both operands of an operator.

The rules of this machine are written down here.  They lead from every set to one result, the
set comes back as it was, and from the empty set the result is the outline.
-/

namespace BlockStage

namespace Program

/-! ### Expressions -/

/-- Writing in place: from a set of open identifiers an expression leads to its text and to the
set of identifiers that are open afterwards. -/
inductive Prints (program : Program) :
    Finset ExpressionId → ExpressionId → String → Finset ExpressionId → Prop where
  | hole {opened : Finset ExpressionId} {id : ExpressionId} :
      program.expression? id = none → Prints program opened id "_" opened
  | closing {opened : Finset ExpressionId} {id : ExpressionId} {node : Expression} :
      program.expression? id = some node → id ∈ opened → Prints program opened id "..." opened
  | constant {opened : Finset ExpressionId} {id : ExpressionId} {value : Float} :
      program.expression? id = some (.constant value) → id ∉ opened →
      Prints program opened id (shownNumber value) ((insert id opened).erase id)
  | read {opened : Finset ExpressionId} {id : ExpressionId} {name : String} :
      program.expression? id = some (.read name) → id ∉ opened →
      Prints program opened id name ((insert id opened).erase id)
  | negate {opened closed : Finset ExpressionId} {id operand : ExpressionId} {text : String} :
      program.expression? id = some (.negate operand) → id ∉ opened →
      Prints program (insert id opened) operand text closed →
      Prints program opened id ("not " ++ text) (closed.erase id)
  | binary {opened middle closed : Finset ExpressionId} {id left right : ExpressionId}
      {operator : Operator} {leftText rightText : String} :
      program.expression? id = some (.binary operator left right) → id ∉ opened →
      Prints program (insert id opened) left leftText middle →
      Prints program middle right rightText closed →
      Prints program opened id
        ("(" ++ leftText ++ " " ++ operator.symbol ++ " " ++ rightText ++ ")") (closed.erase id)

variable {program : Program}

/-- What is written is the text of the tree below the open identifiers, and the set comes back
as it was. -/
theorem Prints.eq_text {opened closed : Finset ExpressionId} {id : ExpressionId} {text : String}
    (prints : program.Prints opened id text closed) {ancestors : List ExpressionId}
    (opens : Opens ancestors opened) :
    text = (program.treeAlong ancestors id).text ∧ closed = opened := by
  induction prints generalizing ancestors with
  | hole missing =>
      rw [treeAlong_of_hole missing]
      exact ⟨rfl, rfl⟩
  | closing found isOpen =>
      rw [treeAlong_of_visited found ((opens _).mpr isOpen)]
      exact ⟨rfl, rfl⟩
  | constant found unopened =>
      rw [treeAlong_of_found found (mt (opens _).mp unopened)]
      exact ⟨rfl, Finset.erase_insert unopened⟩
  | read found unopened =>
      rw [treeAlong_of_found found (mt (opens _).mp unopened)]
      exact ⟨rfl, Finset.erase_insert unopened⟩
  | @negate opened closed id operand text found unopened _ ih =>
      obtain ⟨rfl, rfl⟩ := ih (opens.cons id)
      rw [treeAlong_of_found found (mt (opens _).mp unopened)]
      exact ⟨rfl, Finset.erase_insert unopened⟩
  | @binary opened middle closed id left right operator leftText rightText found unopened _ _
      ihLeft ihRight =>
      -- The left operand has put the set back, so the right one is cut where it was.
      obtain ⟨rfl, rfl⟩ := ihLeft (opens.cons id)
      obtain ⟨rfl, rfl⟩ := ihRight (opens.cons id)
      rw [treeAlong_of_found found (mt (opens _).mp unopened)]
      exact ⟨rfl, Finset.erase_insert unopened⟩

theorem Prints.restored {opened closed : Finset ExpressionId} {id : ExpressionId} {text : String}
    (prints : program.Prints opened id text closed) : program.Prints opened id text opened := by
  have opens : Opens opened.toList opened := fun other => Finset.mem_toList
  exact (prints.eq_text opens).2 ▸ prints

/-- Writing comes to an end from every set of open identifiers. -/
theorem exists_prints (program : Program) {ancestors : List ExpressionId}
    {opened : Finset ExpressionId} (opens : Opens ancestors opened) (id : ExpressionId) :
    ∃ text, program.Prints opened id text opened := by
  induction ancestors, id using program.walk_induction generalizing opened with
  | hole ancestors id missing => exact ⟨"_", .hole missing⟩
  | visited ancestors id node found seen => exact ⟨"...", .closing found ((opens id).mp seen)⟩
  | entered ancestors id node found unseen ih =>
      have unopened : id ∉ opened := mt (opens id).mpr unseen
      cases node with
      | constant value => exact ⟨_, (Prints.constant found unopened).restored⟩
      | read name => exact ⟨_, (Prints.read found unopened).restored⟩
      | negate operand =>
          obtain ⟨text, inner⟩ := ih operand (by simp [Expression.operands]) (opens.cons id)
          exact ⟨_, (Prints.negate found unopened inner).restored⟩
      | binary operator left right =>
          obtain ⟨leftText, innerLeft⟩ :=
            ih left (by simp [Expression.operands]) (opens.cons id)
          obtain ⟨rightText, innerRight⟩ :=
            ih right (by simp [Expression.operands]) (opens.cons id)
          exact ⟨_, (Prints.binary found unopened innerLeft innerRight).restored⟩

/-- From no open identifiers the text of an expression is written, and nothing else. -/
theorem prints_iff (program : Program) (id : ExpressionId) (text : String)
    (closed : Finset ExpressionId) :
    program.Prints ∅ id text closed ↔ text = program.expressionText id ∧ closed = ∅ := by
  have opens : Opens [] ∅ := by simp [Opens]
  rw [expressionText, expressionTextAlong_eq_text]
  constructor
  · intro prints
    exact prints.eq_text opens
  · rintro ⟨rfl, rfl⟩
    obtain ⟨text, prints⟩ := exists_prints program opens id
    rwa [← (prints.eq_text opens).1]

/-! ### Lists -/

mutual

/-- Writing a list in place: from a set of open lists it leads to its lines at a depth and to
the set of lists that are open afterwards. -/
inductive PrintsList (program : Program) :
    Nat → Finset ListId → ListId → List String → Finset ListId → Prop where
  | missing {depth : Nat} {opened : Finset ListId} {id : ListId} :
      program.list? id = none →
      PrintsList program depth opened id [indentedLine depth ("<missing list " ++ id ++ ">")] opened
  | closing {depth : Nat} {opened : Finset ListId} {id : ListId} {items : List StatementId} :
      program.list? id = some items → id ∈ opened →
      PrintsList program depth opened id [indentedLine depth "..."] opened
  | full {depth : Nat} {opened closed : Finset ListId} {id : ListId} {items : List StatementId}
      {lines : List String} :
      program.list? id = some items → id ∉ opened →
      PrintsRow program depth (insert id opened) items lines closed →
      PrintsList program depth opened id lines (closed.erase id)

/-- Writing the statements of a list, one after the other. -/
inductive PrintsRow (program : Program) :
    Nat → Finset ListId → List StatementId → List String → Finset ListId → Prop where
  | nil {depth : Nat} {opened : Finset ListId} : PrintsRow program depth opened [] [] opened
  | cons {depth : Nat} {opened middle closed : Finset ListId} {id : StatementId}
      {later : List StatementId} {lines laterLines : List String} :
      PrintsStatement program depth opened id lines middle →
      PrintsRow program depth middle later laterLines closed →
      PrintsRow program depth opened (id :: later) (lines ++ laterLines) closed

/-- Writing a statement.  Each expression is written with a set of its own. -/
inductive PrintsStatement (program : Program) :
    Nat → Finset ListId → StatementId → List String → Finset ListId → Prop where
  | hole {depth : Nat} {opened : Finset ListId} {id : StatementId} :
      program.statement? id = none →
      PrintsStatement program depth opened id [lineStart depth id ++ "_"] opened
  | assign {depth : Nat} {opened : Finset ListId} {id : StatementId} {name text : String}
      {value : ExpressionId} {rest : Finset ExpressionId} :
      program.statement? id = some (.assign name value) → program.Prints ∅ value text rest →
      PrintsStatement program depth opened id [lineStart depth id ++ name ++ " := " ++ text] opened
  | branch {depth : Nat} {opened middle closed : Finset ListId} {id : StatementId} {text : String}
      {condition : ExpressionId} {rest : Finset ExpressionId} {thenBody elseBody : ListId}
      {thenLines elseLines : List String} :
      program.statement? id = some (.branch condition thenBody elseBody) →
      program.Prints ∅ condition text rest →
      PrintsList program (depth + 1) opened thenBody thenLines middle →
      PrintsList program (depth + 1) middle elseBody elseLines closed →
      PrintsStatement program depth opened id
        ([lineStart depth id ++ "if " ++ text ++ " (" ++ thenBody ++ ")"] ++ thenLines ++
          [indentedLine depth ("else (" ++ elseBody ++ ")")] ++ elseLines) closed
  | loop {depth : Nat} {opened closed : Finset ListId} {id : StatementId} {text : String}
      {condition : ExpressionId} {rest : Finset ExpressionId} {body : ListId}
      {lines : List String} :
      program.statement? id = some (.loop condition body) →
      program.Prints ∅ condition text rest →
      PrintsList program (depth + 1) opened body lines closed →
      PrintsStatement program depth opened id
        ([lineStart depth id ++ "while " ++ text ++ " (" ++ body ++ ")"] ++ lines) closed
  | sleep {depth : Nat} {opened : Finset ListId} {id : StatementId} {text : String}
      {duration : ExpressionId} {rest : Finset ExpressionId} :
      program.statement? id = some (.sleep duration) → program.Prints ∅ duration text rest →
      PrintsStatement program depth opened id [lineStart depth id ++ "sleep " ++ text] opened

end

/-- From a set, each list leads to its lines and back to the set. -/
def Restores (program : Program) (depth : Nat) (opened : Finset ListId)
    (lines : ListId → List String) : Prop :=
  ∀ id written closed, program.PrintsList depth opened id written closed ↔
    written = lines id ∧ closed = opened

section Restoring

variable {depth : Nat} {opened : Finset ListId} {bodyLines : ListId → List String}

theorem Restores.statement_iff (bodies : program.Restores (depth + 1) opened bodyLines)
    (id : StatementId) (written : List String) (closed : Finset ListId) :
    program.PrintsStatement depth opened id written closed ↔
      written = program.statementLines depth bodyLines id ∧ closed = opened := by
  constructor
  · intro prints
    cases prints with
    | hole missing => simp only [statementLines, missing, and_self]
    | assign found value =>
        obtain ⟨rfl, -⟩ := (program.prints_iff _ _ _).mp value
        simp only [statementLines, found, and_self]
    | branch found condition thenPrints elsePrints =>
        obtain ⟨rfl, -⟩ := (program.prints_iff _ _ _).mp condition
        obtain ⟨rfl, rfl⟩ := (bodies _ _ _).mp thenPrints
        obtain ⟨rfl, rfl⟩ := (bodies _ _ _).mp elsePrints
        simp only [statementLines, found, and_self]
    | loop found condition bodyPrints =>
        obtain ⟨rfl, -⟩ := (program.prints_iff _ _ _).mp condition
        obtain ⟨rfl, rfl⟩ := (bodies _ _ _).mp bodyPrints
        simp only [statementLines, found, and_self]
    | sleep found duration =>
        obtain ⟨rfl, -⟩ := (program.prints_iff _ _ _).mp duration
        simp only [statementLines, found, and_self]
  · rintro ⟨rfl, rfl⟩
    have expression (value : ExpressionId) :
        program.Prints ∅ value (program.expressionText value) ∅ :=
      (program.prints_iff _ _ _).mpr ⟨rfl, rfl⟩
    have body (list : ListId) :
        program.PrintsList (depth + 1) closed list (bodyLines list) closed :=
      (bodies _ _ _).mpr ⟨rfl, rfl⟩
    cases found : program.statement? id with
    | none =>
        simp only [statementLines, found]
        exact .hole found
    | some node =>
        cases node with
        | assign name value =>
            simp only [statementLines, found]
            exact .assign found (expression value)
        | branch condition thenBody elseBody =>
            simp only [statementLines, found]
            exact .branch found (expression condition) (body thenBody) (body elseBody)
        | loop condition list =>
            simp only [statementLines, found]
            exact .loop found (expression condition) (body list)
        | sleep duration =>
            simp only [statementLines, found]
            exact .sleep found (expression duration)

theorem Restores.row_iff (bodies : program.Restores (depth + 1) opened bodyLines)
    (items : List StatementId) (written : List String) (closed : Finset ListId) :
    program.PrintsRow depth opened items written closed ↔
      written = items.flatMap (program.statementLines depth bodyLines) ∧ closed = opened := by
  induction items generalizing written with
  | nil =>
      constructor
      · intro prints
        cases prints
        exact ⟨rfl, rfl⟩
      · rintro ⟨rfl, rfl⟩
        exact .nil
  | cons id later ih =>
      rw [List.flatMap_cons]
      constructor
      · intro prints
        cases prints with
        | cons first rest =>
            obtain ⟨rfl, rfl⟩ := (bodies.statement_iff _ _ _).mp first
            obtain ⟨rfl, rfl⟩ := (ih _).mp rest
            exact ⟨rfl, rfl⟩
      · rintro ⟨rfl, rfl⟩
        exact .cons ((bodies.statement_iff _ _ _).mpr ⟨rfl, rfl⟩) ((ih _).mpr ⟨rfl, rfl⟩)

end Restoring

/-- From any set of open lists, writing a list gives its lines below these lists and leaves the
set as it was. -/
theorem restores_listLinesAlong (program : Program) {ancestors : List ListId}
    {opened : Finset ListId} (opens : Opens ancestors opened) (depth : Nat) :
    program.Restores depth opened (program.listLinesAlong ancestors depth) := by
  intro id
  induction ancestors, id using program.list_walk_induction generalizing opened depth with
  | missing ancestors id missing =>
      intro written closed
      rw [listLinesAlong_of_missing missing]
      constructor
      · intro prints
        cases prints with
        | missing _ => exact ⟨rfl, rfl⟩
        | closing found _ => simp [missing] at found
        | full found _ _ => simp [missing] at found
      · rintro ⟨rfl, rfl⟩
        exact .missing missing
  | visited ancestors id items found seen =>
      intro written closed
      have isOpen : id ∈ opened := (opens id).mp seen
      rw [listLinesAlong_of_visited found seen]
      constructor
      · intro prints
        cases prints with
        | missing missing => simp [missing] at found
        | closing _ _ => exact ⟨rfl, rfl⟩
        | full _ unopened _ => exact absurd isOpen unopened
      · rintro ⟨rfl, rfl⟩
        exact .closing found isOpen
  | entered ancestors id items found unseen ih =>
      intro written closed
      have unopened : id ∉ opened := mt (opens id).mpr unseen
      have bodies : program.Restores (depth + 1) (insert id opened)
          (program.listLinesAlong (id :: ancestors) (depth + 1)) :=
        fun body => ih body (opens.cons id) (depth + 1)
      rw [listLinesAlong_of_found found unseen]
      constructor
      · intro prints
        cases prints with
        | missing missing => simp [missing] at found
        | closing _ isOpen => exact absurd isOpen unopened
        | full foundToo _ row =>
            obtain rfl := Option.some.inj (found.symm.trans foundToo)
            obtain ⟨rfl, rfl⟩ := (bodies.row_iff _ _ _).mp row
            exact ⟨rfl, Finset.erase_insert unopened⟩
      · rintro ⟨rfl, rfl⟩
        have written := PrintsList.full found unopened
          ((bodies.row_iff items _ _).mpr ⟨rfl, rfl⟩)
        rwa [Finset.erase_insert unopened] at written

/-- From no open lists one text can be written for the entry list, which is the outline, and
no list is open at the end. -/
theorem outline_written_in_place (program : Program) :
    ∃ lines, program.outline = String.join (lines.map (· ++ "\n")) ∧
      ∀ written closed, program.PrintsList 0 ∅ entryList written closed ↔
        written = lines ∧ closed = ∅ := by
  have opens : Opens [] ∅ := by simp [Opens]
  exact ⟨_, rfl, program.restores_listLinesAlong opens 0 entryList⟩

end Program

end BlockStage

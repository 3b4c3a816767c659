import BlockStage.Proofs.ForestWalks
import BlockStage.Proofs.UnfoldedExpression

/-!
# The outline is the rendering of the unfolded entry list

Lists hold statements, and statements own lists, so the lists of a program form a graph that may
be shared, incomplete or circular.  It is unfolded into a tree by rules that look at nothing but
the lists on the way down: a list that is not stored is a leaf, a list that stands above itself is
a leaf, and every other list is expanded in full, however often it occurs elsewhere.  There is
exactly one such tree.  It is rendered from the inside out: the lines of a body are those that the
list would have on its own, each moved in by two blanks.
-/

namespace BlockStage

mutual

/-- A list with its statements in place. -/
inductive ListTree where
  | missing (list : ListId)
  /-- A list met again below itself. -/
  | cut
  | full (statements : List StatementTree)

/-- A statement with its expression and its bodies in place. -/
inductive StatementTree where
  | hole (id : StatementId)
  | assign (id : StatementId) (name : String) (value : ExpressionTree)
  | branch (id : StatementId) (condition : ExpressionTree) (thenBody : ListId)
      (thenTree : ListTree) (elseBody : ListId) (elseTree : ListTree)
  | loop (id : StatementId) (condition : ExpressionTree) (body : ListId) (tree : ListTree)
  | sleep (id : StatementId) (duration : ExpressionTree)

end

/-- A line of a body, seen from the statement that owns it. -/
def indented (line : String) : String := "  " ++ line

/-- What a line says first: which statement it shows. -/
def statementLabel (id : StatementId) : String := "[" ++ id ++ "] "

mutual

def ListTree.lines : ListTree → List String
  | .missing list => ["<missing list " ++ list ++ ">"]
  | .cut => ["..."]
  | .full statements => StatementTree.linesOfAll statements

def StatementTree.lines : StatementTree → List String
  | .hole id => [statementLabel id ++ "_"]
  | .assign id name value => [statementLabel id ++ name ++ " := " ++ value.text]
  | .branch id condition thenBody thenTree elseBody elseTree =>
      [statementLabel id ++ "if " ++ condition.text ++ " (" ++ thenBody ++ ")"] ++
        thenTree.lines.map indented ++
        ["else (" ++ elseBody ++ ")"] ++
        elseTree.lines.map indented
  | .loop id condition body tree =>
      [statementLabel id ++ "while " ++ condition.text ++ " (" ++ body ++ ")"] ++
        tree.lines.map indented
  | .sleep id duration => [statementLabel id ++ "sleep " ++ duration.text]

def StatementTree.linesOfAll : List StatementTree → List String
  | [] => []
  | statement :: later => statement.lines ++ StatementTree.linesOfAll later

end

theorem StatementTree.linesOfAll_map {α : Type} (tree : α → StatementTree) (row : List α) :
    linesOfAll (row.map tree) = row.flatMap fun entry => (tree entry).lines := by
  induction row with
  | nil => rfl
  | cons entry later ih => rw [List.map_cons, linesOfAll, ih, List.flatMap_cons]

namespace Program

mutual

/-- The tree of a list below the lists on the way down to it. -/
inductive ListUnfolds (program : Program) : List ListId → ListId → ListTree → Prop where
  | missing {ancestors : List ListId} {id : ListId} :
      program.list? id = none → ListUnfolds program ancestors id (.missing id)
  | cut {ancestors : List ListId} {id : ListId} {items : List StatementId} :
      program.list? id = some items → id ∈ ancestors → ListUnfolds program ancestors id .cut
  | full {ancestors : List ListId} {id : ListId} {items : List StatementId}
      {trees : List StatementTree} :
      program.list? id = some items → id ∉ ancestors →
      RowUnfolds program (id :: ancestors) items trees →
      ListUnfolds program ancestors id (.full trees)

/-- The trees of the statements of a list, in their order. -/
inductive RowUnfolds (program : Program) :
    List ListId → List StatementId → List StatementTree → Prop where
  | nil {ancestors : List ListId} : RowUnfolds program ancestors [] []
  | cons {ancestors : List ListId} {id : StatementId} {later : List StatementId}
      {tree : StatementTree} {trees : List StatementTree} :
      StatementUnfolds program ancestors id tree → RowUnfolds program ancestors later trees →
      RowUnfolds program ancestors (id :: later) (tree :: trees)

/-- The tree of a statement below the lists on the way down to it. -/
inductive StatementUnfolds (program : Program) :
    List ListId → StatementId → StatementTree → Prop where
  | hole {ancestors : List ListId} {id : StatementId} :
      program.statement? id = none → StatementUnfolds program ancestors id (.hole id)
  | assign {ancestors : List ListId} {id : StatementId} {name : String} {value : ExpressionId}
      {tree : ExpressionTree} :
      program.statement? id = some (.assign name value) → program.Unfolds [] value tree →
      StatementUnfolds program ancestors id (.assign id name tree)
  | branch {ancestors : List ListId} {id : StatementId} {condition : ExpressionId}
      {tree : ExpressionTree} {thenBody elseBody : ListId} {thenTree elseTree : ListTree} :
      program.statement? id = some (.branch condition thenBody elseBody) →
      program.Unfolds [] condition tree →
      ListUnfolds program ancestors thenBody thenTree →
      ListUnfolds program ancestors elseBody elseTree →
      StatementUnfolds program ancestors id
        (.branch id tree thenBody thenTree elseBody elseTree)
  | loop {ancestors : List ListId} {id : StatementId} {condition : ExpressionId}
      {tree : ExpressionTree} {body : ListId} {bodyTree : ListTree} :
      program.statement? id = some (.loop condition body) →
      program.Unfolds [] condition tree →
      ListUnfolds program ancestors body bodyTree →
      StatementUnfolds program ancestors id (.loop id tree body bodyTree)
  | sleep {ancestors : List ListId} {id : StatementId} {duration : ExpressionId}
      {tree : ExpressionTree} :
      program.statement? id = some (.sleep duration) → program.Unfolds [] duration tree →
      StatementUnfolds program ancestors id (.sleep id tree)

end

/-- The tree of a statement, given those of its bodies. -/
def statementTree (program : Program) (bodyTree : ListId → ListTree) (id : StatementId) :
    StatementTree :=
  match program.statement? id with
  | none => .hole id
  | some (.assign name value) => .assign id name (program.treeAlong [] value)
  | some (.branch condition thenBody elseBody) =>
      .branch id (program.treeAlong [] condition) thenBody (bodyTree thenBody)
        elseBody (bodyTree elseBody)
  | some (.loop condition body) =>
      .loop id (program.treeAlong [] condition) body (bodyTree body)
  | some (.sleep duration) => .sleep id (program.treeAlong [] duration)

/-- The tree of a list that was reached along a path of lists. -/
def listTreeAlong (program : Program) (path : List ListId) (id : ListId) : ListTree :=
  match found : program.list? id with
  | none => .missing id
  | some items =>
      if visited : id ∈ path then .cut
      else
        have : program.lists.unvisited (id :: path) < program.lists.unvisited path :=
          Arena.unvisited_cons_lt (Arena.mem_keys_of_find? found) visited
        .full (items.map (program.statementTree fun body =>
          program.listTreeAlong (id :: path) body))
termination_by program.lists.unvisited path

/-- To show something of every list along every path, it is enough to show it of missing lists, of
lists on the path, and of a list when all lists have it along the longer path. -/
theorem list_walk_induction {program : Program} {motive : List ListId → ListId → Prop}
    (missing : ∀ path id, program.list? id = none → motive path id)
    (visited : ∀ path id items, program.list? id = some items → id ∈ path → motive path id)
    (entered : ∀ path id items, program.list? id = some items → id ∉ path →
      (∀ body, motive (id :: path) body) → motive path id)
    (path : List ListId) (id : ListId) : motive path id := by
  induction left : program.lists.unvisited path using Nat.strongRecOn generalizing path id with
  | _ count ih =>
    cases found : program.list? id with
    | none => exact missing path id found
    | some items =>
        by_cases seen : id ∈ path
        · exact visited path id items found seen
        · have fewer : program.lists.unvisited (id :: path) < count :=
            left ▸ Arena.unvisited_cons_lt (Arena.mem_keys_of_find? found) seen
          exact entered path id items found seen fun body => ih _ fewer (id :: path) body rfl

section Unfolding

variable {program : Program} {path : List ListId} {id : ListId} {items : List StatementId}

theorem listTreeAlong_of_missing (missing : program.list? id = none) :
    program.listTreeAlong path id = .missing id := by
  rw [listTreeAlong]
  split
  · rfl
  · simp_all

theorem listTreeAlong_of_visited (found : program.list? id = some items) (visited : id ∈ path) :
    program.listTreeAlong path id = .cut := by
  rw [listTreeAlong]
  split
  · simp_all
  · rw [dif_pos visited]

theorem listTreeAlong_of_found (found : program.list? id = some items) (unseen : id ∉ path) :
    program.listTreeAlong path id =
      .full (items.map (program.statementTree (program.listTreeAlong (id :: path)))) := by
  rw [listTreeAlong]
  split
  · simp_all
  · rename_i others foundToo
    obtain rfl : items = others := Option.some.inj (found.symm.trans foundToo)
    rw [dif_neg unseen]

/-! ### There is exactly one tree -/

theorem statementUnfolds_statementTree {bodyTree : ListId → ListTree}
    (bodies : ∀ body, program.ListUnfolds path body (bodyTree body)) (statement : StatementId) :
    program.StatementUnfolds path statement (program.statementTree bodyTree statement) := by
  have expressions := program.unfolds_treeAlong []
  cases found : program.statement? statement with
  | none =>
      simp only [statementTree, found]
      exact .hole found
  | some node =>
      cases node with
      | assign name value =>
          simp only [statementTree, found]
          exact .assign found (expressions value)
      | branch condition thenBody elseBody =>
          simp only [statementTree, found]
          exact .branch found (expressions condition) (bodies thenBody) (bodies elseBody)
      | loop condition body =>
          simp only [statementTree, found]
          exact .loop found (expressions condition) (bodies body)
      | sleep duration =>
          simp only [statementTree, found]
          exact .sleep found (expressions duration)

theorem rowUnfolds_map {tree : StatementId → StatementTree}
    (unfolds : ∀ statement, program.StatementUnfolds path statement (tree statement))
    (items : List StatementId) : program.RowUnfolds path items (items.map tree) := by
  induction items with
  | nil => exact .nil
  | cons statement later ih => exact .cons (unfolds statement) ih

theorem listUnfolds_listTreeAlong (program : Program) (path : List ListId) (id : ListId) :
    program.ListUnfolds path id (program.listTreeAlong path id) := by
  induction path, id using program.list_walk_induction with
  | missing path id missing =>
      rw [listTreeAlong_of_missing missing]
      exact .missing missing
  | visited path id items found seen =>
      rw [listTreeAlong_of_visited found seen]
      exact .cut found seen
  | entered path id items found unseen ih =>
      rw [listTreeAlong_of_found found unseen]
      exact .full found unseen (rowUnfolds_map (statementUnfolds_statementTree ih) items)

theorem StatementUnfolds.eq_statementTree {bodyTree : ListId → ListTree}
    (bodies : ∀ body tree, program.ListUnfolds path body tree → tree = bodyTree body)
    {statement : StatementId} {tree : StatementTree}
    (unfolds : program.StatementUnfolds path statement tree) :
    tree = program.statementTree bodyTree statement := by
  cases unfolds with
  | hole missing => simp only [statementTree, missing]
  | assign found value => simp only [statementTree, found, value.eq_treeAlong]
  | branch found condition thenUnfolds elseUnfolds =>
      simp only [statementTree, found, condition.eq_treeAlong, bodies _ _ thenUnfolds,
        bodies _ _ elseUnfolds]
  | loop found condition bodyUnfolds =>
      simp only [statementTree, found, condition.eq_treeAlong, bodies _ _ bodyUnfolds]
  | sleep found duration => simp only [statementTree, found, duration.eq_treeAlong]

theorem RowUnfolds.eq_map {tree : StatementId → StatementTree}
    (same : ∀ statement other, program.StatementUnfolds path statement other →
      other = tree statement) {trees : List StatementTree}
    (unfolds : program.RowUnfolds path items trees) : trees = items.map tree := by
  induction items generalizing trees with
  | nil =>
      cases unfolds
      rfl
  | cons statement later ih =>
      cases unfolds with
      | cons first rest => rw [same _ _ first, ih rest, List.map_cons]

theorem ListUnfolds.eq_listTreeAlong {tree : ListTree}
    (unfolds : program.ListUnfolds path id tree) : tree = program.listTreeAlong path id := by
  induction path, id using program.list_walk_induction generalizing tree with
  | missing path id missing =>
      rw [listTreeAlong_of_missing missing]
      cases unfolds with
      | missing _ => rfl
      | cut found _ => simp [missing] at found
      | full found _ _ => simp [missing] at found
  | visited path id items found seen =>
      rw [listTreeAlong_of_visited found seen]
      cases unfolds with
      | missing missing => simp [missing] at found
      | cut _ _ => rfl
      | full _ unseen _ => exact absurd seen unseen
  | entered path id items found unseen ih =>
      rw [listTreeAlong_of_found found unseen]
      cases unfolds with
      | missing missing => simp [missing] at found
      | cut _ seen => exact absurd seen unseen
      | full foundToo _ row =>
          obtain rfl := Option.some.inj (found.symm.trans foundToo)
          have statements := row.eq_map fun _ _ unfolds =>
            unfolds.eq_statementTree fun body tree bodyUnfolds => ih body bodyUnfolds
          rw [statements]

end Unfolding

/-! ### The lines -/

theorem indentedLine_append (depth : Nat) (front back : String) :
    indentedLine depth front ++ back = indentedLine depth (front ++ back) :=
  String.append_assoc

theorem indentedLine_indented (depth : Nat) (line : String) :
    indentedLine depth (indented line) = indentedLine (depth + 1) line := by
  have blanks : String.ofList (List.replicate (2 * (depth + 1)) ' ') =
      String.ofList (List.replicate (2 * depth) ' ') ++ "  " := by
    apply String.toList_inj.mp
    rw [String.toList_append, String.toList_ofList, String.toList_ofList,
      show 2 * (depth + 1) = 2 * depth + 2 by omega, List.replicate_add]
    rfl
  rw [indentedLine, indentedLine, indented, blanks, String.append_assoc]

/-- Lines that are moved in from the inside out are moved in by the depth. -/
theorem map_indentedLine_indented (depth : Nat) (lines : List String) :
    (lines.map indented).map (indentedLine depth) = lines.map (indentedLine (depth + 1)) := by
  rw [List.map_map]
  exact List.map_congr_left fun line _ => indentedLine_indented depth line

theorem statementLines_eq (program : Program) (depth : Nat) {bodyLines : ListId → List String}
    {bodyTree : ListId → ListTree}
    (bodies : ∀ body, bodyLines body = (bodyTree body).lines.map (indentedLine (depth + 1)))
    (statement : StatementId) :
    program.statementLines depth bodyLines statement =
      (program.statementTree bodyTree statement).lines.map (indentedLine depth) := by
  have start : lineStart depth statement = indentedLine depth (statementLabel statement) := rfl
  have text (id : ExpressionId) : program.expressionText id = (program.treeAlong [] id).text :=
    program.expressionTextAlong_eq_text [] id
  cases found : program.statement? statement with
  | none =>
      simp only [statementLines, statementTree, found, StatementTree.lines, start,
        indentedLine_append, List.map_cons, List.map_nil]
  | some node =>
      cases node with
      | assign name value =>
          simp only [statementLines, statementTree, found, StatementTree.lines, start, text,
            indentedLine_append, List.map_cons, List.map_nil]
      | branch condition thenBody elseBody =>
          simp only [statementLines, statementTree, found, StatementTree.lines, start, text,
            bodies, indentedLine_append, map_indentedLine_indented, List.map_append,
            List.map_cons, List.map_nil]
      | loop condition body =>
          simp only [statementLines, statementTree, found, StatementTree.lines, start, text,
            bodies, indentedLine_append, map_indentedLine_indented, List.map_append,
            List.map_cons, List.map_nil]
      | sleep duration =>
          simp only [statementLines, statementTree, found, StatementTree.lines, start, text,
            indentedLine_append, List.map_cons, List.map_nil]

theorem listLinesAlong_of_missing {program : Program} {path : List ListId} {id : ListId}
    (missing : program.list? id = none) (depth : Nat) :
    program.listLinesAlong path depth id =
      [indentedLine depth ("<missing list " ++ id ++ ">")] := by
  rw [listLinesAlong]
  split
  · rfl
  · simp_all

theorem listLinesAlong_of_visited {program : Program} {path : List ListId} {id : ListId}
    {items : List StatementId} (found : program.list? id = some items) (visited : id ∈ path)
    (depth : Nat) : program.listLinesAlong path depth id = [indentedLine depth "..."] := by
  rw [listLinesAlong]
  split
  · simp_all
  · rw [dif_pos visited]

/-- The lines of a list at some depth are those of its tree, moved in by the depth. -/
theorem listLinesAlong_eq (program : Program) (path : List ListId) (depth : Nat) (id : ListId) :
    program.listLinesAlong path depth id =
      (program.listTreeAlong path id).lines.map (indentedLine depth) := by
  induction path, id using program.list_walk_induction generalizing depth with
  | missing path id missing =>
      rw [listTreeAlong_of_missing missing, listLinesAlong_of_missing missing]
      rfl
  | visited path id items found seen =>
      rw [listTreeAlong_of_visited found seen, listLinesAlong_of_visited found seen]
      rfl
  | entered path id items found unseen ih =>
      rw [listTreeAlong_of_found found unseen, listLinesAlong_of_found found unseen,
        ListTree.lines, StatementTree.linesOfAll_map, List.map_flatMap]
      congr 1
      funext statement
      exact program.statementLines_eq depth (fun body => ih body (depth + 1)) statement

/-- The rules of unfolding give exactly one tree for every list below any others, and the outline
of a program is the rendering of the tree of its entry list, each line with its line break. -/
theorem outline_is_rendering_of_unfolding (program : Program) :
    (∀ ancestors id, ∃! tree, program.ListUnfolds ancestors id tree) ∧
      ∃ tree, program.ListUnfolds [] entryList tree ∧
        program.outline = String.join (tree.lines.map (· ++ "\n")) := by
  constructor
  · intro ancestors id
    exact ⟨program.listTreeAlong ancestors id, program.listUnfolds_listTreeAlong ancestors id,
      fun tree unfolds => unfolds.eq_listTreeAlong⟩
  · refine ⟨_, program.listUnfolds_listTreeAlong [] entryList, ?_⟩
    have outermost : indentedLine 0 = id := funext fun line => String.empty_append
    rw [outline, listLinesAlong_eq, outermost, List.map_id]

end Program

end BlockStage

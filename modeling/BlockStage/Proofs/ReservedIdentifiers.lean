import BlockStage.Proofs.IdentifierSupply
import Mathlib.Logic.Relation

/-! # Reserving identifiers

A default node comes with holes for its expressions and with empty lists for its bodies, all
under identifiers that were just taken from the counters.  This file says what a program is
after such identifiers have been reserved: its nodes are as they were, the lists are those it
had and the empty ones, and each new identifier renders a number that its counter had not
reached before and has passed now.  An operation that finds a counter exhausted leaves the
nodes as they were, too.
-/

namespace BlockStage

/-! ### What is taken from the counters -/

/-- The identifier renders a number from `low` on and below `high`. -/
def Numbered (low high : UInt64) (id : String) : Prop :=
  ∃ number, id = countId number ∧ low ≤ number ∧ number < high

namespace Numbered

variable {low middle high : UInt64} {id other : String}

theorem le (numbered : Numbered low high id) : low ≤ high := by
  obtain ⟨number, -, above, below⟩ := numbered
  exact UInt64.le_of_lt (UInt64.lt_of_le_of_lt above below)

theorem mono {low' high' : UInt64} (numbered : Numbered low high id) (lowLe : low' ≤ low)
    (highLe : high ≤ high') : Numbered low' high' id := by
  obtain ⟨number, named, above, below⟩ := numbered
  exact ⟨number, named, UInt64.le_trans lowLe above, UInt64.lt_of_lt_of_le below highLe⟩

/-- Identifiers of separate stretches are different. -/
theorem ne (first : Numbered low middle id) (second : Numbered middle high other) :
    id ≠ other := by
  obtain ⟨number, rfl, -, below⟩ := first
  obtain ⟨next, rfl, above, -⟩ := second
  intro same
  exact UInt64.ne_of_lt (UInt64.lt_of_lt_of_le below above) (countId_injective same)

end Numbered

/-- Both identifiers render numbers, and the first a smaller one. -/
def Precedes (first second : String) : Prop :=
  ∃ number next, first = countId number ∧ second = countId next ∧ number < next

namespace Precedes

variable {first second third : String}

theorem irrefl (id : String) : ¬ Precedes id id := by
  rintro ⟨number, next, rfl, same, less⟩
  exact UInt64.ne_of_lt less (countId_injective same)

theorem trans (before : Precedes first second) (behind : Precedes second third) :
    Precedes first third := by
  obtain ⟨number, middle, rfl, rfl, less⟩ := before
  obtain ⟨same, next, named, rfl, lessNext⟩ := behind
  obtain rfl := countId_injective named
  exact ⟨number, next, rfl, rfl, UInt64.lt_trans less lessNext⟩

theorem of_numbered {low middle high : UInt64} (before : Numbered low middle first)
    (behind : Numbered middle high second) : Precedes first second := by
  obtain ⟨number, rfl, -, below⟩ := before
  obtain ⟨next, rfl, above, -⟩ := behind
  exact ⟨number, next, rfl, rfl, UInt64.lt_of_lt_of_le below above⟩

/-- What only ever leads to later identifiers does not lead back. -/
theorem not_transGen {relation : String → String → Prop}
    (rises : ∀ ⦃first second⦄, relation first second → Precedes first second) (id : String) :
    ¬ Relation.TransGen relation id id := by
  intro cycle
  have precedes {last : String} (path : Relation.TransGen relation id last) :
      Precedes id last := by
    induction path with
    | single edge => exact rises edge
    | tail _ edge ih => exact ih.trans (rises edge)
  exact irrefl id (precedes cycle)

end Precedes

/-- The identifiers were taken from the counter of a table while one program became the
other. -/
structure Supply.Took (supply : Supply) (program after : Program) (ids : List String) : Prop where
  nodup : ids.Nodup
  fresh : ∀ id ∈ ids, id ∉ supply.keys program
  numbered : ∀ id ∈ ids, Numbered (supply.count program) (supply.count after) id
  count_le : supply.count program ≤ supply.count after

namespace Supply.Took

variable {supply : Supply} {program after : Program}

theorem nothing (same : supply.count after = supply.count program) :
    supply.Took program after [] :=
  ⟨List.nodup_nil, by simp, by simp, same ▸ UInt64.le_refl _⟩

theorem one {id : String} (fresh : id ∉ supply.keys program)
    (numbered : Numbered (supply.count program) (supply.count after) id) :
    supply.Took program after [id] :=
  ⟨by simp, by simpa using fresh, by simpa using numbered, numbered.le⟩

theorem congr {middle : Program} {ids : List String} (took : supply.Took program middle ids)
    (same : supply.count after = supply.count middle) : supply.Took program after ids :=
  ⟨took.nodup, took.fresh, same ▸ took.numbered, same ▸ took.count_le⟩

/-- What is taken in two stretches is taken in one. -/
theorem append {middle : Program} {first second : List String}
    (took : supply.Took program middle first) (more : supply.Took middle after second)
    (kept : supply.keys program ⊆ supply.keys middle) :
    supply.Took program after (first ++ second) where
  nodup := by
    refine List.nodup_append.mpr ⟨took.nodup, more.nodup, ?_⟩
    intro id isFirst other isSecond
    exact (took.numbered id isFirst).ne (more.numbered other isSecond)
  fresh id taken := by
    rcases List.mem_append.mp taken with isFirst | isSecond
    · exact took.fresh id isFirst
    · exact fun known => more.fresh id isSecond (kept known)
  numbered id taken := by
    rcases List.mem_append.mp taken with isFirst | isSecond
    · exact (took.numbered id isFirst).mono (UInt64.le_refl _) more.count_le
    · exact (more.numbered id isSecond).mono took.count_le (UInt64.le_refl _)
  count_le := UInt64.le_trans took.count_le more.count_le

end Supply.Took

theorem Arena.find?_eq_none_iff {α : Type} (arena : Arena α) (id : String) :
    arena.find? id = none ↔ id ∉ arena.keys := by
  rw [Arena.mem_keys_iff, Bool.not_eq_true, Option.isSome_eq_false_iff, Option.isNone_iff_eq_none]

namespace Program

variable {program after : Program}

theorem numbered_of_takeId {taken : String → Bool} {count next : UInt64} {id : String}
    (took : takeId taken count = (some id, next)) :
    taken id = false ∧ Numbered count next id := by
  obtain ⟨number, named, free, above, below, -, -⟩ := takeId_eq_some took
  exact ⟨free, number, named, above, below⟩

theorem allocateExpression_eq_ok {id : ExpressionId}
    (done : allocateExpression program = .ok id after) :
    after = { program with expressionCount := after.expressionCount } ∧
      Supply.expressions.Took program after [id] := by
  unfold allocateExpression at done
  split at done <;> cases done
  rename_i took
  obtain ⟨free, numbered⟩ := numbered_of_takeId took
  exact ⟨rfl, .one ((Arena.contains_eq_false_iff _ _).mp free) numbered⟩

theorem registerList_eq_ok {items : List StatementId} {id : ListId}
    (done : registerList items program = .ok id after) :
    after = { program with
      lists := program.lists.insert id items
      listCount := after.listCount } ∧
      Supply.lists.Took program after [id] := by
  obtain ⟨granted, middle, asked, rest⟩ := grow_bind_eq_ok done
  unfold allocateList at asked
  split at asked <;> cases asked
  rename_i took
  cases rest
  obtain ⟨free, numbered⟩ := numbered_of_takeId took
  exact ⟨rfl, .one ((Arena.contains_eq_false_iff _ _).mp free) numbered⟩

theorem registerStatement_eq_ok {node : Statement} {id : StatementId}
    (done : registerStatement node program = .ok id after) :
    after = { program with
      statements := program.statements.insert id node
      statementCount := after.statementCount } ∧
      Supply.statements.Took program after [id] := by
  obtain ⟨granted, middle, asked, rest⟩ := grow_bind_eq_ok done
  unfold allocateStatement at asked
  split at asked <;> cases asked
  rename_i took
  cases rest
  obtain ⟨free, numbered⟩ := numbered_of_takeId took
  exact ⟨rfl, .one ((Arena.contains_eq_false_iff _ _).mp free) numbered⟩

/-- The program has grown by holes and by empty lists under new identifiers, and nothing
else has changed. -/
structure Reserved (program : Program) (holes : List ExpressionId) (bodies : List ListId)
    (after : Program) : Prop where
  statements : after.statements = program.statements
  statementCount : after.statementCount = program.statementCount
  expressions : after.expressions = program.expressions
  list? : ∀ other, after.list? other = if other ∈ bodies then some [] else program.list? other
  tookHoles : Supply.expressions.Took program after holes
  tookBodies : Supply.lists.Took program after bodies

namespace Reserved

variable {middle : Program} {holes : List ExpressionId} {bodies : List ListId}

theorem refl (program : Program) : Reserved program [] [] program :=
  ⟨rfl, rfl, rfl, by simp, .nothing rfl, .nothing rfl⟩

theorem allocate {id : ExpressionId} (reserved : Reserved program holes bodies middle)
    (done : allocateExpression middle = .ok id after) :
    Reserved program (holes ++ [id]) bodies after := by
  obtain ⟨same, took⟩ := allocateExpression_eq_ok done
  have known : Supply.expressions.keys program ⊆ Supply.expressions.keys middle := by
    simp only [Supply.keys, reserved.expressions, List.Subset.refl]
  have tookBodies : Supply.lists.Took program after bodies :=
    reserved.tookBodies.congr (by rw [same]; rfl)
  refine ⟨?_, ?_, ?_, ?_, reserved.tookHoles.append took known, tookBodies⟩
  · rw [same, ← reserved.statements]
  · rw [same, ← reserved.statementCount]
  · rw [same, ← reserved.expressions]
  · intro other
    rw [same]
    exact reserved.list? other

theorem register {id : ListId} (reserved : Reserved program holes bodies middle)
    (done : registerList [] middle = .ok id after) :
    Reserved program holes (bodies ++ [id]) after := by
  obtain ⟨same, took⟩ := registerList_eq_ok done
  have known : Supply.lists.keys program ⊆ Supply.lists.keys middle := by
    intro other isKey
    have found := reserved.list? other
    simp only [Supply.keys, Arena.mem_keys_iff] at isKey ⊢
    change (middle.list? other).isSome
    rw [found]
    split
    · rfl
    · exact isKey
  have tookHoles : Supply.expressions.Took program after holes :=
    reserved.tookHoles.congr (by rw [same]; rfl)
  refine ⟨?_, ?_, ?_, ?_, tookHoles, reserved.tookBodies.append took known⟩
  · rw [same, ← reserved.statements]
  · rw [same, ← reserved.statementCount]
  · rw [same, ← reserved.expressions]
  · intro other
    have found := reserved.list? other
    rw [same]
    simp only [Program.list?, Arena.find?_insert] at found ⊢
    rw [found]
    by_cases here : other = id <;> simp [here]

end Reserved

/-- A default statement has a new hole as its expression and new empty lists as its bodies. -/
theorem newStatement_eq_ok {kind : StatementKind} {node : Statement}
    (done : newStatement kind program = .ok node after) :
    Reserved program node.expressions node.bodies after ∧ node.kind = kind := by
  cases kind with
  | assign =>
      obtain ⟨value, middle, asked, rest⟩ := grow_bind_eq_ok done
      cases rest
      exact ⟨(Reserved.refl program).allocate asked, rfl⟩
  | branch =>
      obtain ⟨condition, afterCondition, asked, rest⟩ := grow_bind_eq_ok done
      obtain ⟨thenBody, afterThen, askedThen, rest⟩ := grow_bind_eq_ok rest
      obtain ⟨elseBody, afterElse, askedElse, rest⟩ := grow_bind_eq_ok rest
      cases rest
      exact ⟨(((Reserved.refl program).allocate asked).register askedThen).register askedElse, rfl⟩
  | loop =>
      obtain ⟨condition, afterCondition, asked, rest⟩ := grow_bind_eq_ok done
      obtain ⟨body, afterBody, askedBody, rest⟩ := grow_bind_eq_ok rest
      cases rest
      exact ⟨((Reserved.refl program).allocate asked).register askedBody, rfl⟩
  | sleep =>
      obtain ⟨duration, middle, asked, rest⟩ := grow_bind_eq_ok done
      cases rest
      exact ⟨(Reserved.refl program).allocate asked, rfl⟩

/-- The operands of a default node are new holes. -/
theorem newExpression_eq_ok {kind : ExpressionKind} {node : Expression}
    (done : newExpression kind program = .ok node after) :
    Reserved program node.operands [] after := by
  cases kind with
  | constant =>
      cases done
      exact .refl program
  | read =>
      cases done
      exact .refl program
  | negate =>
      obtain ⟨operand, middle, asked, rest⟩ := grow_bind_eq_ok done
      cases rest
      exact (Reserved.refl program).allocate asked
  | binary operator =>
      obtain ⟨left, middle, askedLeft, rest⟩ := grow_bind_eq_ok done
      obtain ⟨right, behind, askedRight, rest⟩ := grow_bind_eq_ok rest
      cases rest
      exact ((Reserved.refl program).allocate askedLeft).allocate askedRight

end Program

/-! ### Operations that only grow a program -/

/-- The program has taken identifiers and stored empty lists, but neither statements nor
expressions. -/
structure OnlyGrown (program after : Program) : Prop where
  statements : after.statements = program.statements
  expressions : after.expressions = program.expressions
  list? : ∀ list items, after.list? list = some items →
    items = [] ∨ program.list? list = some items
  count_le : program.expressionCount ≤ after.expressionCount

namespace OnlyGrown

variable {program middle after : Program}

theorem of_counts (same : after.statements = program.statements ∧
      after.expressions = program.expressions ∧ after.lists = program.lists)
    (count_le : program.expressionCount ≤ after.expressionCount) : OnlyGrown program after := by
  obtain ⟨statements, expressions, lists⟩ := same
  refine ⟨statements, expressions, ?_, count_le⟩
  intro list items found
  rw [Program.list?, lists] at found
  exact Or.inr found

theorem refl (program : Program) : OnlyGrown program program :=
  of_counts ⟨rfl, rfl, rfl⟩ (UInt64.le_refl _)

theorem trans (first : OnlyGrown program middle) (second : OnlyGrown middle after) :
    OnlyGrown program after where
  statements := second.statements.trans first.statements
  expressions := second.expressions.trans first.expressions
  list? list items found := by
    rcases second.list? list items found with empty | before
    · exact Or.inl empty
    · exact first.list? list items before
  count_le := UInt64.le_trans first.count_le second.count_le

end OnlyGrown

/-- What fails in two parts fails in the first or, behind it, in the second. -/
theorem bind_eq_error {ε α β : Type} {first : EStateM ε Program α}
    {next : α → EStateM ε Program β} {fault : ε} {program after : Program}
    (failed : (first >>= next) program = .error fault after) :
    first program = .error fault after ∨
      ∃ value middle, first program = .ok value middle ∧
        next value middle = .error fault after := by
  change EStateM.bind first next program = .error fault after at failed
  unfold EStateM.bind at failed
  split at failed
  · rename_i value middle done
    exact Or.inr ⟨value, middle, done, failed⟩
  · rename_i failedFirst
    cases failed
    exact Or.inl failedFirst

namespace Program

variable {α β : Type} {program after : Program}

/-- Whether it comes to its end or finds a counter exhausted, the operation stores neither
statements nor expressions. -/
structure GrowsOnly (growth : Grow α) : Prop where
  of_ok : ∀ {program after result}, growth program = .ok result after → OnlyGrown program after
  of_error : ∀ {program after fault}, growth program = .error fault after →
    OnlyGrown program after

theorem GrowsOnly.pure (result : α) : GrowsOnly (Pure.pure result) where
  of_ok done := by
    cases done
    exact .refl _
  of_error cut := by cases cut

theorem GrowsOnly.bind {growth : Grow α} {next : α → Grow β} (first : GrowsOnly growth)
    (second : ∀ value, GrowsOnly (next value)) : GrowsOnly (growth >>= next) where
  of_ok done := by
    obtain ⟨value, middle, grown, rest⟩ := grow_bind_eq_ok done
    exact (first.of_ok grown).trans ((second value).of_ok rest)
  of_error cut := by
    rcases bind_eq_error cut with exhausted | ⟨value, middle, grown, rest⟩
    · exact first.of_error exhausted
    · exact (first.of_ok grown).trans ((second value).of_error rest)

theorem takeId_eq_none {taken : String → Bool} {count last : UInt64}
    (exhausted : takeId taken count = (none, last)) : count ≤ last := by
  fun_induction takeId taken count with
  | case1 =>
      cases exhausted
      exact UInt64.le_refl _
  | case2 count notLast isTaken ih =>
      have next := UInt64.le_iff_toNat_le.mp (ih exhausted)
      rw [toNat_add_one_of_ne_lastCount notLast] at next
      exact UInt64.le_iff_toNat_le.mpr (by omega)
  | case3 => cases exhausted

theorem growsOnly_allocateExpression : GrowsOnly allocateExpression where
  of_ok done := by
    obtain ⟨same, took⟩ := allocateExpression_eq_ok done
    rw [same] at took ⊢
    exact .of_counts ⟨rfl, rfl, rfl⟩ took.count_le
  of_error cut := by
    unfold allocateExpression at cut
    split at cut <;> cases cut
    rename_i exhausted
    exact .of_counts ⟨rfl, rfl, rfl⟩ (takeId_eq_none exhausted)

theorem growsOnly_registerList : GrowsOnly (registerList []) where
  of_ok done := by
    obtain ⟨same, -⟩ := registerList_eq_ok done
    rw [same]
    refine ⟨rfl, rfl, ?_, UInt64.le_refl _⟩
    intro list items found
    simp only [Program.list?, Arena.find?_insert] at found
    split at found
    · exact Or.inl (Option.some.inj found).symm
    · exact Or.inr found
  of_error cut := by
    rcases bind_eq_error cut with exhausted | ⟨_, _, _, rest⟩
    · unfold allocateList at exhausted
      split at exhausted <;> cases exhausted
      exact .of_counts ⟨rfl, rfl, rfl⟩ (UInt64.le_refl _)
    · cases rest

theorem registerStatement_eq_error {node : Statement} {fault : CounterExhausted}
    (cut : registerStatement node program = .error fault after) : OnlyGrown program after := by
  rcases bind_eq_error cut with exhausted | ⟨_, _, _, rest⟩
  · unfold allocateStatement at exhausted
    split at exhausted <;> cases exhausted
    exact .of_counts ⟨rfl, rfl, rfl⟩ (UInt64.le_refl _)
  · cases rest

theorem growsOnly_newExpression (kind : ExpressionKind) : GrowsOnly (newExpression kind) := by
  cases kind with
  | constant => exact .pure _
  | read => exact .pure _
  | negate => exact .bind growsOnly_allocateExpression fun _ => .pure _
  | binary operator =>
      exact .bind growsOnly_allocateExpression fun _ =>
        .bind growsOnly_allocateExpression fun _ => .pure _

theorem growsOnly_newStatement (kind : StatementKind) : GrowsOnly (newStatement kind) := by
  cases kind with
  | assign => exact .bind growsOnly_allocateExpression fun _ => .pure _
  | branch =>
      exact .bind growsOnly_allocateExpression fun _ =>
        .bind growsOnly_registerList fun _ => .bind growsOnly_registerList fun _ => .pure _
  | loop =>
      exact .bind growsOnly_allocateExpression fun _ =>
        .bind growsOnly_registerList fun _ => .pure _
  | sleep => exact .bind growsOnly_allocateExpression fun _ => .pure _

end Program

end BlockStage

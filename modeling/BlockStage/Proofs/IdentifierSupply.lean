import BlockStage.Program.Growth
import Mathlib.Data.List.Nodup

/-!
# Identifiers are handed out once

Each of the three tables of a program has a counter, and new identifiers are
the decimal renderings of its values.  This file follows the identifiers over
any sequence of operations on a program.  An operation with its answer determines
a row of steps, each of them a change to one table or a question to an allocator,
and taking these steps one by one leads to the program that the operation leaves.
So each grant has its place among the steps, with the program that the allocator
saw there, and the identifiers granted from one counter rise strictly, whatever is
stored, replaced or removed between two grants.
-/

namespace BlockStage

/-! ### One question to an allocator -/

theorem toString_nat_injective : Function.Injective (toString : Nat → String) := by
  intro first second same
  have digits : Nat.toDigits 10 first = Nat.toDigits 10 second := by
    simpa only [Nat.toString_eq_repr, Nat.toList_repr] using congrArg String.toList same
  have values := congrArg (fun row => Nat.ofDigitChars 10 row 0) digits
  simpa using values

theorem countId_injective : Function.Injective countId := by
  intro first second same
  exact UInt64.toNat_inj.mp (toString_nat_injective same)

theorem isDigit_of_mem_countId {count : UInt64} {sign : Char}
    (member : sign ∈ (countId count).toList) : sign.isDigit = true := by
  rw [countId, Nat.toString_eq_repr, Nat.toList_repr] at member
  exact Nat.isDigit_of_mem_toDigits (by decide) (by decide) member

/-- No counter value is rendered as the identifier of the entry list. -/
theorem countId_ne_entryList (count : UInt64) : countId count ≠ entryList := by
  intro same
  have letter : 'e' ∈ (countId count).toList := by
    rw [same]
    decide
  exact absurd (isDigit_of_mem_countId letter) (by decide)

theorem toNat_add_one_of_ne_lastCount {count : UInt64} (notLast : count ≠ lastCount) :
    (count + 1).toNat = count.toNat + 1 := by
  have bound : count.toNat < UInt64.size := count.toNat_lt
  have differs : count.toNat ≠ 18446744073709551615 := fun equal =>
    notLast (UInt64.toNat_inj.mp equal)
  rw [UInt64.toNat_add, UInt64.toNat_one]
  simp only [UInt64.size] at bound
  omega

/-- The identifier that is taken belongs to the first counter value from the
given one on whose rendering is free, and the counter moves behind that value. -/
theorem takeId_eq_some {taken : String → Bool} {count next : UInt64} {id : String}
    (took : takeId taken count = (some id, next)) :
    ∃ number, id = countId number ∧ taken id = false ∧ count ≤ number ∧ number < next ∧
      next = number + 1 ∧
      ∀ other, count ≤ other → other < number → taken (countId other) = true := by
  fun_induction takeId taken count with
  | case1 => simp at took
  | case2 count notLast isTaken ih =>
      obtain ⟨number, named, free, above, below, successor, passed⟩ := ih took
      have step := toNat_add_one_of_ne_lastCount notLast
      rw [UInt64.le_iff_toNat_le] at above
      refine ⟨number, named, free, UInt64.le_iff_toNat_le.mpr (by omega), below, successor, ?_⟩
      intro other fromCount belowNumber
      by_cases here : other = count
      · rw [here]
        exact isTaken
      · have apart : other.toNat ≠ count.toNat := fun equal => here (UInt64.toNat_inj.mp equal)
        rw [UInt64.le_iff_toNat_le] at fromCount
        exact passed other (UInt64.le_iff_toNat_le.mpr (by omega)) belowNumber
  | case3 count notLast free =>
      simp only [Prod.mk.injEq, Option.some.injEq] at took
      obtain ⟨rfl, rfl⟩ := took
      have step := toNat_add_one_of_ne_lastCount notLast
      refine ⟨count, rfl, by simpa using free, UInt64.le_refl count,
        UInt64.lt_iff_toNat_lt.mpr (by omega), rfl, ?_⟩
      intro other fromCount belowCount
      exact absurd belowCount (UInt64.not_lt.mpr fromCount)

theorem Arena.contains_iff {α : Type} (arena : Arena α) (id : String) :
    arena.contains id = true ↔ id ∈ arena.keys :=
  (arena.mem_keys_iff id).symm

theorem Arena.contains_eq_false_iff {α : Type} (arena : Arena α) (id : String) :
    arena.contains id = false ↔ id ∉ arena.keys := by
  rw [← arena.contains_iff, Bool.not_eq_true]

/-- The tables of a program that take their identifiers from a counter. -/
inductive Supply where
  | expressions
  | statements
  | lists
deriving DecidableEq

namespace Supply

def count (program : Program) : Supply → UInt64
  | .expressions => program.expressionCount
  | .statements => program.statementCount
  | .lists => program.listCount

def keys (program : Program) : Supply → List String
  | .expressions => program.expressions.keys
  | .statements => program.statements.keys
  | .lists => program.lists.keys

/-- Asks the allocator of a table for an identifier. -/
def allocate : Supply → Grow String
  | .expressions => Program.allocateExpression
  | .statements => Program.allocateStatement
  | .lists => Program.allocateList

/-- An allocator grants the rendering of a number from its counter on, which is
no key of its table, and moves its counter, and no other, behind that number. -/
theorem allocate_eq_ok {supply : Supply} {program next : Program} {id : String}
    (granted : supply.allocate program = .ok id next) :
    ∃ number, id = countId number ∧ id ∉ supply.keys program ∧
      supply.count program ≤ number ∧ number < supply.count next ∧
      ∀ other, other ≠ supply → other.count next = other.count program := by
  -- The three allocators do the same to three different tables.
  cases supply
  all_goals
    simp only [allocate, Program.allocateExpression, Program.allocateStatement,
      Program.allocateList] at granted
    split at granted <;> cases granted
    rename_i took
    obtain ⟨number, named, free, above, below, -, -⟩ := takeId_eq_some took
    refine ⟨number, named, (Arena.contains_eq_false_iff _ _).mp free, above, below, ?_⟩
    intro other differs
    cases other <;> first | rfl | exact absurd rfl differs

end Supply

/-! ### Operations on a program -/

/-- An operation on a program, with its arguments. -/
inductive Operation where
  | allocate (supply : Supply)
  | registerStatement (node : Statement)
  | registerList (items : List StatementId)
  | setExpression (id : ExpressionId) (node : Option Expression)
  | setStatement (id : StatementId) (node : Option Statement)
  | newExpression (kind : ExpressionKind)
  | newStatement (kind : StatementKind)
  | append (list : ListId) (statement : StatementId)
  | removeAt (list : ListId) (index : Nat)

/-- What an operation answers. -/
inductive Answer where
  | identifier (supply : Supply) (id : String)
  | expression (node : Expression)
  | statement (node : Statement)
  | removed (statement : Option StatementId)
  | nothing

/-- The identifiers that an answer hands out, in the order in which they were
taken.  New nodes bring the identifiers of their operands and bodies with them. -/
def Answer.handedOut : Answer → List (Supply × String)
  | .identifier supply id => [(supply, id)]
  | .expression node => node.operands.map (Supply.expressions, ·)
  | .statement node =>
      node.expressions.map (Supply.expressions, ·) ++ node.bodies.map (Supply.lists, ·)
  | .removed _ => []
  | .nothing => []

namespace Operation

def perform : Operation → Grow Answer
  | .allocate supply => return .identifier supply (← supply.allocate)
  | .registerStatement node =>
      return .identifier .statements (← Program.registerStatement node)
  | .registerList items => return .identifier .lists (← Program.registerList items)
  | .setExpression id node => do
      modify fun program => program.setExpression id node
      return .nothing
  | .setStatement id node => do
      modify fun program => program.setStatement id node
      return .nothing
  | .newExpression kind => return .expression (← Program.newExpression kind)
  | .newStatement kind => return .statement (← Program.newStatement kind)
  | .append list statement => do
      modify fun program => program.append list statement
      return .nothing
  | .removeAt list index => do
      match (← get).removeAt list index with
      | some (statement, program) =>
          set program
          return .removed (some statement)
      | none => return .removed none

def performAll (operations : List Operation) : Grow (List Answer) :=
  operations.mapM perform

end Operation

/-! ### Steps of operations -/

/-- A change to one of the tables. -/
inductive TableChange where
  | setExpression (id : ExpressionId) (node : Option Expression)
  | setStatement (id : StatementId) (node : Option Statement)
  | storeList (id : ListId) (items : List StatementId)
  | append (list : ListId) (statement : StatementId)
  | removeAt (list : ListId) (index : Nat)

def TableChange.apply (program : Program) : TableChange → Program
  | .setExpression id node => program.setExpression id node
  | .setStatement id node => program.setStatement id node
  | .storeList id items => { program with lists := program.lists.insert id items }
  | .append list statement => program.append list statement
  | .removeAt list index => ((program.removeAt list index).map Prod.snd).getD program

theorem TableChange.count_apply (change : TableChange) (program : Program) (supply : Supply) :
    supply.count (change.apply program) = supply.count program := by
  cases change with
  | setExpression id node => cases supply <;> rfl
  | setStatement id node => cases supply <;> rfl
  | storeList id items => cases supply <;> rfl
  | append list statement =>
      simp only [apply, Program.append]
      split <;> cases supply <;> rfl
  | removeAt list index =>
      simp only [apply, Program.removeAt]
      split
      · split <;> cases supply <;> rfl
      · cases supply <;> rfl

/-- One of the things that an operation does: it changes a table, or it has an allocator
hand out an identifier. -/
inductive GrowthStep where
  | changed (change : TableChange)
  | granted (supply : Supply) (id : String)

namespace GrowthStep

/-- The program after a step.  There is none if the allocator does not hand out just this
identifier. -/
def after? (program : Program) : GrowthStep → Option Program
  | .changed change => some (change.apply program)
  | .granted supply id =>
      match supply.allocate program with
      | .ok taken next => if taken = id then some next else none
      | .error _ _ => none

def replay? : Program → List GrowthStep → Option Program
  | program, [] => some program
  | program, step :: later => (step.after? program).bind fun next => replay? next later

def ticket? : GrowthStep → Option (Supply × String)
  | .changed _ => none
  | .granted supply id => some (supply, id)

/-- The identifiers that steps hand out, each with its table. -/
def tickets (steps : List GrowthStep) : List (Supply × String) := steps.filterMap ticket?

variable {program next first last : Program} {supply : Supply} {id : String}
variable {steps : List GrowthStep}

theorem after?_granted_iff :
    after? program (.granted supply id) = some next ↔ supply.allocate program = .ok id next := by
  cases asked : supply.allocate program with
  | ok taken given => simp [after?, asked]
  | error fault given => simp [after?, asked]

theorem replay?_append (program : Program) (before later : List GrowthStep) :
    replay? program (before ++ later) =
      (replay? program before).bind fun middle => replay? middle later := by
  induction before generalizing program with
  | nil => rfl
  | cons step rest ih =>
      simp only [List.cons_append, replay?, Option.bind_assoc]
      congr 1
      funext middle
      exact ih middle

theorem replay?_granted (supply : Supply) (asked : supply.allocate program = .ok id next)
    (later : List GrowthStep) :
    replay? program (.granted supply id :: later) = replay? next later := by
  rw [replay?, after?_granted_iff.mpr asked, Option.bind_some]

/-- Steps of which the first is a grant go on from where the allocator leaves the program. -/
theorem exists_of_replay?_granted {later : List GrowthStep}
    (replayed : replay? program (.granted supply id :: later) = some last) :
    ∃ next, supply.allocate program = .ok id next ∧ replay? next later = some last := by
  obtain ⟨next, asked, rest⟩ := Option.bind_eq_some_iff.mp replayed
  exact ⟨next, after?_granted_iff.mp asked, rest⟩

theorem count_le_of_replay? (replayed : replay? first steps = some last) (supply : Supply) :
    supply.count first ≤ supply.count last := by
  induction steps generalizing first with
  | nil =>
      cases replayed
      exact UInt64.le_refl _
  | cons step later ih =>
      cases step with
      | changed change =>
          rw [← change.count_apply first supply]
          exact ih replayed
      | granted asked id =>
          obtain ⟨next, granted, rest⟩ := exists_of_replay?_granted replayed
          obtain ⟨number, -, -, above, below, others⟩ := Supply.allocate_eq_ok granted
          by_cases here : supply = asked
          · subst here
            exact UInt64.le_trans (UInt64.le_of_lt (UInt64.lt_of_le_of_lt above below)) (ih rest)
          · exact others supply here ▸ ih rest

end GrowthStep

open GrowthStep (replay? tickets)

/-- The identifiers among some that belong to one table, in their order. -/
def idsOf (supply : Supply) (tickets : List (Supply × String)) : List String :=
  (tickets.filter fun ticket => ticket.1 = supply).map Prod.snd

/-- The identifiers granted from one counter are the renderings of strictly
rising numbers, none of them below the counter at the beginning. -/
theorem numbers_rise {first last : Program} {steps : List GrowthStep}
    (replayed : replay? first steps = some last) (supply : Supply) :
    ∃ numbers : List UInt64, idsOf supply (tickets steps) = numbers.map countId ∧
      numbers.Pairwise (· < ·) ∧ ∀ number ∈ numbers, supply.count first ≤ number := by
  induction steps generalizing first with
  | nil => exact ⟨[], rfl, List.Pairwise.nil, by simp⟩
  | cons step later ih =>
      cases step with
      | changed change =>
          obtain ⟨numbers, named, rising, above⟩ := ih replayed
          refine ⟨numbers, named, rising, fun number member => ?_⟩
          rw [← change.count_apply first supply]
          exact above number member
      | granted asked id =>
          obtain ⟨next, granted, rest⟩ := GrowthStep.exists_of_replay?_granted replayed
          obtain ⟨numbers, named, rising, above⟩ := ih rest
          obtain ⟨number, rendered, -, atCounter, belowNext, others⟩ :=
            Supply.allocate_eq_ok granted
          by_cases here : asked = supply
          · subst here
            -- Everything granted later lies at or above the counter behind this grant.
            refine ⟨number :: numbers, ?_, List.pairwise_cons.mpr ⟨?_, rising⟩, ?_⟩
            · rw [List.map_cons, ← named, ← rendered]
              simp [idsOf, tickets, GrowthStep.ticket?]
            · exact fun other member => UInt64.lt_of_lt_of_le belowNext (above other member)
            · intro other member
              rcases List.mem_cons.mp member with rfl | isLater
              · exact atCounter
              · have rises := UInt64.lt_of_le_of_lt atCounter belowNext
                exact UInt64.le_trans (UInt64.le_of_lt rises) (above other isLater)
          · refine ⟨numbers, ?_, rising, ?_⟩
            · simpa [idsOf, tickets, GrowthStep.ticket?, here] using named
            · intro other member
              rw [← others supply (fun same => here same.symm)]
              exact above other member

/-! ### The steps of each operation -/

/-- The steps by which bodies are made: each is granted and then stored without items. -/
def bodySteps (bodies : List ListId) : List GrowthStep :=
  bodies.flatMap fun body => [.granted .lists body, .changed (.storeList body [])]

/-- The steps of an operation that has given an answer. -/
def Operation.steps : Operation → Answer → List GrowthStep
  | .allocate supply, .identifier _ id => [.granted supply id]
  | .registerStatement node, .identifier _ id =>
      [.granted .statements id, .changed (.setStatement id (some node))]
  | .registerList items, .identifier _ id =>
      [.granted .lists id, .changed (.storeList id items)]
  | .setExpression id node, _ => [.changed (.setExpression id node)]
  | .setStatement id node, _ => [.changed (.setStatement id node)]
  | .newExpression _, .expression node => node.operands.map (.granted .expressions)
  | .newStatement _, .statement node =>
      node.expressions.map (.granted .expressions) ++ bodySteps node.bodies
  | .append list statement, _ => [.changed (.append list statement)]
  | .removeAt list index, _ => [.changed (.removeAt list index)]
  | _, _ => []

/-- The steps of operations that have given some answers. -/
def stepsOf (operations : List Operation) (answers : List Answer) : List GrowthStep :=
  (List.zipWith Operation.steps operations answers).flatten

section Tracing

variable {α β : Type} {program last : Program}

theorem grow_bind_eq_ok {growth : Grow α} {next : α → Grow β} {result : β}
    (done : (growth >>= next) program = .ok result last) :
    ∃ value middle, growth program = .ok value middle ∧ next value middle = .ok result last := by
  change EStateM.bind growth next program = .ok result last at done
  unfold EStateM.bind at done
  split at done
  · rename_i value middle first
    exact ⟨value, middle, first, done⟩
  · cases done

theorem replay?_expression {id : ExpressionId}
    (done : Program.allocateExpression program = .ok id last) (later : List GrowthStep) :
    replay? program (.granted .expressions id :: later) = replay? last later :=
  GrowthStep.replay?_granted .expressions done later

theorem replay?_registerStatement {node : Statement} {id : StatementId}
    (done : Program.registerStatement node program = .ok id last) :
    replay? program [.granted .statements id, .changed (.setStatement id (some node))] =
      some last := by
  obtain ⟨granted, middle, asked, rest⟩ := grow_bind_eq_ok done
  cases rest
  exact GrowthStep.replay?_granted .statements asked _

theorem replay?_registerList {items : List StatementId} {id : ListId}
    (done : Program.registerList items program = .ok id last) (later : List GrowthStep) :
    replay? program (.granted .lists id :: .changed (.storeList id items) :: later) =
      replay? last later := by
  obtain ⟨granted, middle, asked, rest⟩ := grow_bind_eq_ok done
  cases rest
  exact GrowthStep.replay?_granted .lists asked _

/-- A new node takes its operands from left to right. -/
theorem replay?_newExpression {kind : ExpressionKind} {node : Expression}
    (done : Program.newExpression kind program = .ok node last) :
    replay? program (node.operands.map (.granted .expressions)) = some last := by
  cases kind with
  | constant =>
      cases done
      rfl
  | read =>
      cases done
      rfl
  | negate =>
      obtain ⟨operand, middle, asked, rest⟩ := grow_bind_eq_ok done
      cases rest
      exact replay?_expression asked []
  | binary operator =>
      obtain ⟨left, middle, askedLeft, rest⟩ := grow_bind_eq_ok done
      obtain ⟨right, behind, askedRight, rest⟩ := grow_bind_eq_ok rest
      cases rest
      calc replay? program [.granted .expressions left, .granted .expressions right]
          = replay? middle [.granted .expressions right] := replay?_expression askedLeft _
        _ = some last := replay?_expression askedRight []

/-- A new statement takes its expression first, and then makes its bodies in order. -/
theorem replay?_newStatement {kind : StatementKind} {node : Statement}
    (done : Program.newStatement kind program = .ok node last) :
    replay? program (node.expressions.map (.granted .expressions) ++ bodySteps node.bodies) =
      some last := by
  cases kind with
  | assign =>
      obtain ⟨value, middle, asked, rest⟩ := grow_bind_eq_ok done
      cases rest
      exact replay?_expression asked []
  | branch =>
      obtain ⟨condition, afterCondition, askedCondition, rest⟩ := grow_bind_eq_ok done
      obtain ⟨thenBody, afterThen, askedThen, rest⟩ := grow_bind_eq_ok rest
      obtain ⟨elseBody, afterElse, askedElse, rest⟩ := grow_bind_eq_ok rest
      cases rest
      calc replay? program (.granted .expressions condition :: bodySteps [thenBody, elseBody])
          = replay? afterCondition (bodySteps [thenBody, elseBody]) :=
            replay?_expression askedCondition _
        _ = replay? afterThen (bodySteps [elseBody]) := replay?_registerList askedThen _
        _ = some last := replay?_registerList askedElse []
  | loop =>
      obtain ⟨condition, afterCondition, askedCondition, rest⟩ := grow_bind_eq_ok done
      obtain ⟨body, afterBody, askedBody, rest⟩ := grow_bind_eq_ok rest
      cases rest
      calc replay? program (.granted .expressions condition :: bodySteps [body])
          = replay? afterCondition (bodySteps [body]) := replay?_expression askedCondition _
        _ = some last := replay?_registerList askedBody []
  | sleep =>
      obtain ⟨duration, middle, asked, rest⟩ := grow_bind_eq_ok done
      cases rest
      exact replay?_expression asked []

theorem tickets_map_granted (supply : Supply) (ids : List String) :
    tickets (ids.map (.granted supply)) = ids.map (supply, ·) := by
  induction ids with
  | nil => rfl
  | cons id rest ih => exact congrArg (List.cons _) ih

theorem tickets_bodySteps (bodies : List ListId) :
    tickets (bodySteps bodies) = bodies.map (Supply.lists, ·) := by
  induction bodies with
  | nil => rfl
  | cons body rest ih => exact congrArg (List.cons _) ih

/-- The steps of an operation lead to the program that the operation leaves, and hand out
what its answer hands out. -/
theorem replay?_perform {operation : Operation} {answer : Answer}
    (done : operation.perform program = .ok answer last) :
    replay? program (operation.steps answer) = some last ∧
      tickets (operation.steps answer) = answer.handedOut := by
  cases operation with
  | allocate supply =>
      obtain ⟨id, middle, asked, rest⟩ := grow_bind_eq_ok done
      cases rest
      exact ⟨GrowthStep.replay?_granted supply asked [], rfl⟩
  | registerStatement node =>
      obtain ⟨id, middle, registered, rest⟩ := grow_bind_eq_ok done
      cases rest
      exact ⟨replay?_registerStatement registered, rfl⟩
  | registerList items =>
      obtain ⟨id, middle, registered, rest⟩ := grow_bind_eq_ok done
      cases rest
      exact ⟨replay?_registerList registered [], rfl⟩
  | setExpression id node =>
      cases done
      exact ⟨rfl, rfl⟩
  | setStatement id node =>
      cases done
      exact ⟨rfl, rfl⟩
  | newExpression kind =>
      obtain ⟨node, middle, built, rest⟩ := grow_bind_eq_ok done
      cases rest
      exact ⟨replay?_newExpression built, tickets_map_granted _ _⟩
  | newStatement kind =>
      obtain ⟨node, middle, built, rest⟩ := grow_bind_eq_ok done
      cases rest
      refine ⟨replay?_newStatement built, ?_⟩
      rw [Operation.steps, tickets, List.filterMap_append]
      exact congrArg₂ (· ++ ·) (tickets_map_granted _ _) (tickets_bodySteps _)
  | append list statement =>
      cases done
      exact ⟨rfl, rfl⟩
  | removeAt list index =>
      obtain ⟨seen, middle, got, rest⟩ := grow_bind_eq_ok done
      cases got
      have step : replay? program (Operation.steps (.removeAt list index) answer) =
          some (((program.removeAt list index).map Prod.snd).getD program) := rfl
      rw [step]
      cases removed : program.removeAt list index with
      | some pair =>
          simp only [removed] at rest
          cases rest
          exact ⟨rfl, rfl⟩
      | none =>
          simp only [removed] at rest
          cases rest
          exact ⟨rfl, rfl⟩

theorem replay?_performAll {operations : List Operation} {answers : List Answer}
    (done : Operation.performAll operations program = .ok answers last) :
    replay? program (stepsOf operations answers) = some last ∧
      tickets (stepsOf operations answers) = answers.flatMap Answer.handedOut := by
  induction operations generalizing program answers with
  | nil =>
      cases done
      exact ⟨rfl, rfl⟩
  | cons operation rest ih =>
      simp only [Operation.performAll, List.mapM_cons] at done
      obtain ⟨answer, middle, first, behind⟩ := grow_bind_eq_ok done
      obtain ⟨others, final, second, finished⟩ := grow_bind_eq_ok behind
      cases finished
      obtain ⟨stepped, granted⟩ := replay?_perform first
      obtain ⟨replayed, handed⟩ := ih second
      have split : stepsOf (operation :: rest) (answer :: others) =
          operation.steps answer ++ stepsOf rest others := rfl
      constructor
      · rw [split, GrowthStep.replay?_append, stepped, Option.bind_some, replayed]
      · rw [split, tickets, List.filterMap_append, List.flatMap_cons]
        exact congrArg₂ (· ++ ·) granted handed

end Tracing

/-- Over any sequence of operations on any program that does not exhaust a
counter, the steps of the operations lead to the program they leave, and hand out
what the answers hand out.  Where a step grants an identifier, the program that
the steps before it lead to has no such key.  Out of each table the identifiers are the
renderings of strictly rising numbers and therefore pairwise distinct; none is
the identifier of the entry list; and no operation lowers a counter. -/
theorem identifiers_handed_out_once {operations : List Operation} {first last : Program}
    {answers : List Answer}
    (performed : Operation.performAll operations first = .ok answers last) :
    (replay? first (stepsOf operations answers) = some last ∧
      tickets (stepsOf operations answers) = answers.flatMap Answer.handedOut) ∧
    (∀ before supply id later,
      stepsOf operations answers = before ++ .granted supply id :: later →
        ∃ program next, replay? first before = some program ∧
          supply.allocate program = .ok id next ∧ replay? next later = some last ∧
          id ∉ supply.keys program) ∧
    (∀ supply, ∃ numbers : List UInt64,
      idsOf supply (answers.flatMap Answer.handedOut) = numbers.map countId ∧
        numbers.Pairwise (· < ·)) ∧
    (∀ supply, (idsOf supply (answers.flatMap Answer.handedOut)).Nodup) ∧
    entryList ∉ idsOf .lists (answers.flatMap Answer.handedOut) ∧
    (∀ (operation : Operation) (program next : Program) (answer : Answer),
      operation.perform program = .ok answer next →
        replay? program (operation.steps answer) = some next ∧
        ∀ supply : Supply, supply.count program ≤ supply.count next) := by
  obtain ⟨replayed, handed⟩ := replay?_performAll performed
  have rise (supply : Supply) := handed ▸ numbers_rise replayed supply
  refine ⟨⟨replayed, handed⟩, ?_, ?_, ?_, ?_, ?_⟩
  · intro before supply id later split
    rw [split, GrowthStep.replay?_append] at replayed
    obtain ⟨program, reached, rest⟩ := Option.bind_eq_some_iff.mp replayed
    obtain ⟨next, granted, goesOn⟩ := GrowthStep.exists_of_replay?_granted rest
    obtain ⟨-, -, unused, -⟩ := Supply.allocate_eq_ok granted
    exact ⟨program, next, reached, granted, goesOn, unused⟩
  · intro supply
    obtain ⟨numbers, named, rising, -⟩ := rise supply
    exact ⟨numbers, named, rising⟩
  · intro supply
    obtain ⟨numbers, named, rising, -⟩ := rise supply
    rw [named]
    exact List.Nodup.map countId_injective (rising.imp UInt64.ne_of_lt)
  · obtain ⟨numbers, named, -, -⟩ := rise .lists
    rw [named]
    rintro member
    obtain ⟨number, -, same⟩ := List.mem_map.mp member
    exact countId_ne_entryList number same
  · intro operation program next answer done
    have stepped := (replay?_perform done).1
    exact ⟨stepped, fun supply => GrowthStep.count_le_of_replay? stepped supply⟩

/-- A program whose expression counter lags behind its table. -/
def laggingProgram : Program :=
  Program.empty.setExpression "1" (some (.read "x"))

/-- Operations that fill a granted slot, clear it again and go on taking
identifiers from all three counters. -/
def clearingSession : List Operation :=
  [.allocate .expressions, .newExpression .negate, .setExpression "2" (some (.read "y")),
    .setExpression "2" none, .newStatement .branch, .registerStatement (.sleep "3"),
    .append entryList "0", .allocate .lists]

/-- The taken identifier `1` is passed over and the cleared one `2` does not come
again. -/
theorem identifiers_of_clearingSession :
    ∃ answers last, Operation.performAll clearingSession laggingProgram = .ok answers last ∧
      answers.flatMap Answer.handedOut =
        [(.expressions, "0"), (.expressions, "2"), (.expressions, "3"), (.lists, "0"),
          (.lists, "1"), (.statements, "0"), (.lists, "2")] ∧
      replay? laggingProgram (stepsOf clearingSession answers) = some last ∧
      ∀ supply, (idsOf supply (answers.flatMap Answer.handedOut)).Nodup := by
  have handed :
      (match Operation.performAll clearingSession laggingProgram with
        | .ok answers _ => some (answers.flatMap Answer.handedOut)
        | .error _ _ => none) =
        some [(.expressions, "0"), (.expressions, "2"), (.expressions, "3"), (.lists, "0"),
          (.lists, "1"), (.statements, "0"), (.lists, "2")] := by
    decide +kernel
  cases performed : Operation.performAll clearingSession laggingProgram with
  | error fault last => simp [performed] at handed
  | ok answers last =>
      rw [performed] at handed
      obtain ⟨⟨replayed, -⟩, -, -, distinct, -, -⟩ := identifiers_handed_out_once performed
      exact ⟨answers, last, rfl, Option.some.inj handed, replayed, distinct⟩

end BlockStage

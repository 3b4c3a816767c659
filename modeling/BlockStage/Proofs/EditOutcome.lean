import BlockStage.Edit
import BlockStage.Proofs.ProgramRoundTrip
import BlockStage.Proofs.ReservedIdentifiers

/-! # What edits do

An edit checks its arguments and then grows or changes the program.  For each edit this
file says what has been checked and what has been done to the program once the edit is
through.  Growing a program never touches the expressions that are there, and a value that
is given for a constant is checked, so a program whose constants can be written stays one.
-/

namespace BlockStage

namespace Edit

variable {α β : Type} {program after : Program}

theorem bind_eq_ok {edit : Edit α} {next : α → Edit β} {result : β}
    (done : (edit >>= next) program = .ok result after) :
    ∃ value middle, edit program = .ok value middle ∧ next value middle = .ok result after := by
  change EStateM.bind edit next program = .ok result after at done
  unfold EStateM.bind at done
  split at done
  · rename_i value middle first
    exact ⟨value, middle, first, done⟩
  · cases done

theorem grow_eq_ok {growth : Grow α} {result : α} (done : grow growth program = .ok result after) :
    growth program = .ok result after := by
  unfold grow at done
  split at done
  · rename_i grown
    cases done
    exact grown
  · cases done

theorem kindOf_eq_ok {parsed : Except UnknownKind α} {kind : α}
    (done : kindOf parsed program = .ok kind after) : parsed = .ok kind ∧ after = program := by
  cases parsed with
  | ok named =>
      cases done
      exact ⟨rfl, rfl⟩
  | error unknown => cases done

/-- What adding a statement does, when it is done. -/
theorem addStatement_eq_ok {list : ListId} {word : String} {id : StatementId} {slots : Slots}
    (done : addStatement list word program = .ok (id, slots) after) :
    ∃ kind node built registered, StatementKind.parse word = .ok kind ∧
      (program.list? list).isSome ∧ Program.newStatement kind program = .ok node built ∧
      Program.registerStatement node built = .ok id registered ∧
      after = registered.append list id ∧ slots = ⟨node.expressions, node.bodies⟩ := by
  obtain ⟨kind, _, parsed, rest⟩ := bind_eq_ok done
  obtain ⟨named, same⟩ := kindOf_eq_ok parsed
  rw [same] at rest
  obtain ⟨_, _, got, rest⟩ := bind_eq_ok rest
  cases got
  cases present : program.list? list with
  | none =>
      simp only [present, Option.isNone_none, if_true] at rest
      cases rest
  | some items =>
      simp only [present, Option.isNone_some, Bool.false_eq_true, if_false] at rest
      obtain ⟨node, built, grown, rest⟩ := bind_eq_ok rest
      obtain ⟨_, registered, entered, rest⟩ := bind_eq_ok rest
      cases rest
      exact ⟨kind, node, built, registered, named, rfl, grow_eq_ok grown, grow_eq_ok entered,
        rfl, rfl⟩

/-- What filling a slot does, when it is done. -/
theorem fillExpression_eq_ok {id : ExpressionId} {word : String} {value : Option Float}
    {name : Option String} {slots : Slots}
    (done : fillExpression id word value name program = .ok slots after) :
    ∃ kind node built, ExpressionKind.parse word = .ok kind ∧
      (∀ number, value = some number → number.isFinite = true) ∧
      Program.newExpression kind program = .ok node built ∧
      after = built.setExpression id (some (adjust value name node)) ∧
      slots = ⟨node.operands, []⟩ := by
  obtain ⟨kind, _, parsed, rest⟩ := bind_eq_ok done
  obtain ⟨named, same⟩ := kindOf_eq_ok parsed
  rw [same] at rest
  have finite : ∀ number, value = some number → number.isFinite = true := by
    rintro number rfl
    cases given : number.isFinite with
    | true => rfl
    | false =>
        simp only [given, Bool.not_false, if_true] at rest
        cases rest
  have unchecked : (do
      let node ← grow (Program.newExpression kind)
      modify fun program => program.setExpression id (some (adjust value name node))
      return Slots.mk node.operands [] : Edit Slots) program = .ok slots after := by
    cases value with
    | none => exact rest
    | some number =>
        simpa only [finite number rfl, Bool.not_true, Bool.false_eq_true, if_false] using rest
  obtain ⟨node, built, grown, rest⟩ := bind_eq_ok unchecked
  cases rest
  exact ⟨kind, node, built, named, finite, grow_eq_ok grown, rfl, rfl⟩

/-- What renaming does, when it is done. -/
theorem rename_eq_ok {statement : StatementId} {name : String} {result : Unit}
    (done : rename statement name program = .ok result after) :
    ∃ old value, program.statement? statement = some (.assign old value) ∧
      after = program.setStatement statement (some (.assign name value)) := by
  obtain ⟨_, _, got, rest⟩ := bind_eq_ok done
  cases got
  cases found : program.statement? statement with
  | none =>
      simp only [found] at rest
      cases rest
  | some node =>
      simp only [found] at rest
      cases node with
      | assign old value =>
          cases rest
          exact ⟨old, value, rfl, rfl⟩
      | branch condition thenBody elseBody => cases rest
      | loop condition body => cases rest
      | sleep duration => cases rest

/-- What removing does, when it is done. -/
theorem remove_eq_ok {list : ListId} {index : Nat} {statement : StatementId}
    (done : remove list index program = .ok statement after) :
    program.removeAt list index = some (statement, after) := by
  obtain ⟨_, _, got, rest⟩ := bind_eq_ok done
  cases got
  cases present : program.list? list with
  | none =>
      simp only [present, Option.isNone_none, if_true] at rest
      cases rest
  | some items =>
      simp only [present, Option.isNone_some, Bool.false_eq_true, if_false] at rest
      obtain ⟨_, _, got, rest⟩ := bind_eq_ok rest
      cases got
      cases removed : program.removeAt list index with
      | none =>
          simp only [removed] at rest
          cases rest
      | some found =>
          simp only [removed] at rest
          cases rest
          rfl

end Edit

/-! ### Constants stay finite -/

namespace Program

theorem expressions_registerStatement {program after : Program} {node : Statement}
    {id : StatementId} (done : registerStatement node program = .ok id after) :
    after.expressions = program.expressions := by
  rw [(registerStatement_eq_ok done).1]

theorem expressions_append (program : Program) (list : ListId) (statement : StatementId) :
    (program.append list statement).expressions = program.expressions := by
  unfold append
  split <;> rfl

theorem expressions_removeAt {program after : Program} {list : ListId} {index : Nat}
    {statement : StatementId} (removed : program.removeAt list index = some (statement, after)) :
    after.expressions = program.expressions := by
  unfold removeAt at removed
  split at removed
  · split at removed
    · cases removed
      rfl
    · cases removed
  · cases removed

theorem hasFiniteConstants_iff_found (program : Program) :
    program.HasFiniteConstants ↔
      ∀ id value, program.expression? id = some (.constant value) → value.isFinite = true := by
  simp only [HasFiniteConstants, Arena.mem_entries_iff, expression?]

theorem hasFiniteConstants_empty : empty.HasFiniteConstants := by
  intro id value isEntry
  cases isEntry

theorem HasFiniteConstants.of_expressions_eq {program after : Program}
    (finite : program.HasFiniteConstants) (same : after.expressions = program.expressions) :
    after.HasFiniteConstants := by
  intro id value isEntry
  rw [same] at isEntry
  exact finite id value isEntry

theorem HasFiniteConstants.setExpression {program : Program} (finite : program.HasFiniteConstants)
    (id : ExpressionId) {node : Option Expression}
    (fits : ∀ value, node = some (.constant value) → value.isFinite = true) :
    (program.setExpression id node).HasFiniteConstants := by
  rw [hasFiniteConstants_iff_found] at finite ⊢
  intro other value found
  cases node with
  | none =>
      rw [Program.setExpression, expression?, Arena.set, Arena.find?_erase] at found
      split at found
      · cases found
      · exact finite other value found
  | some stored =>
      rw [Program.setExpression, expression?, Arena.set, Arena.find?_insert] at found
      split at found
      · exact fits value found
      · exact finite other value found

/-- A default constant can be written, and so can one with a value that was checked. -/
theorem isFinite_adjust {kind : ExpressionKind} {program built : Program} {node : Expression}
    {value : Option Float} {name : Option String} {number : Float}
    (grown : newExpression kind program = .ok node built)
    (checked : ∀ given, value = some given → given.isFinite = true)
    (adjusted : Edit.adjust value name node = .constant number) : number.isFinite = true := by
  cases kind with
  | constant =>
      cases grown
      cases adjusted
      cases value with
      | none => decide +kernel
      | some given => exact checked given rfl
  | read =>
      cases grown
      cases adjusted
  | negate =>
      obtain ⟨operand, middle, asked, rest⟩ := grow_bind_eq_ok grown
      cases rest
      cases adjusted
  | binary operator =>
      obtain ⟨left, middle, askedLeft, rest⟩ := grow_bind_eq_ok grown
      obtain ⟨right, behind, askedRight, rest⟩ := grow_bind_eq_ok rest
      cases rest
      cases adjusted

end Program

namespace Edit

variable {program after : Program}

theorem addStatement_keepsFinite {list : ListId} {word : String}
    {result : StatementId × Slots} (done : addStatement list word program = .ok result after)
    (finite : program.HasFiniteConstants) : after.HasFiniteConstants := by
  obtain ⟨id, slots⟩ := result
  obtain ⟨kind, node, built, registered, -, -, grown, entered, rfl, -⟩ := addStatement_eq_ok done
  apply finite.of_expressions_eq
  rw [Program.expressions_append, Program.expressions_registerStatement entered,
    ((Program.growsOnly_newStatement kind).of_ok grown).expressions]

theorem fillExpression_keepsFinite {id : ExpressionId} {word : String} {value : Option Float}
    {name : Option String} {slots : Slots}
    (done : fillExpression id word value name program = .ok slots after)
    (finite : program.HasFiniteConstants) : after.HasFiniteConstants := by
  obtain ⟨kind, node, built, -, checked, grown, rfl, -⟩ := fillExpression_eq_ok done
  have builtFinite := finite.of_expressions_eq
    ((Program.growsOnly_newExpression kind).of_ok grown).expressions
  apply builtFinite.setExpression
  intro number adjusted
  exact Program.isFinite_adjust grown checked (Option.some.inj adjusted)

theorem clearExpression_keepsFinite {id : ExpressionId} {result : Unit}
    (done : clearExpression id program = .ok result after)
    (finite : program.HasFiniteConstants) : after.HasFiniteConstants := by
  cases done
  apply finite.setExpression
  intro value filled
  cases filled

theorem rename_keepsFinite {statement : StatementId} {name : String} {result : Unit}
    (done : rename statement name program = .ok result after)
    (finite : program.HasFiniteConstants) : after.HasFiniteConstants := by
  obtain ⟨old, value, -, rfl⟩ := rename_eq_ok done
  exact finite.of_expressions_eq rfl

theorem remove_keepsFinite {list : ListId} {index : Nat} {statement : StatementId}
    (done : remove list index program = .ok statement after)
    (finite : program.HasFiniteConstants) : after.HasFiniteConstants :=
  finite.of_expressions_eq (Program.expressions_removeAt (remove_eq_ok done))

end Edit

end BlockStage

import BlockStage.Proofs.AddedStatement

/-!
# The slots of a filled expression

An expression is filled in by a node whose operands are new holes.  The operands are taken from
the counter before the node is stored, and the identifier that is filled need not have been
taken from it.  If it still lies ahead of the counter, and so close that it is the turn of this
identifier, it is handed out as an operand of its own node.  The slot that is reported then
is no hole: it is the node that was just stored, and the node refers to itself.  This file says
what filling an expression changes and exactly when that happens.
-/

namespace BlockStage

namespace Supply

variable {supply : Supply} {program middle after : Program} {ids more : List String}

/-- The identifier is one of the next to be handed out: it lies ahead of the counter, and less
than so many others are ahead of the counter and come before it. -/
def Imminent (supply : Supply) (program : Program) (amount : Nat) (id : String) : Prop :=
  supply.Ahead program id ∧
    ∀ earlier : List String, earlier.Nodup →
      (∀ other ∈ earlier, supply.Ahead program other ∧ Precedes other id) →
      earlier.length < amount

theorem skipsNone_nothing (supply : Supply) (program : Program) :
    supply.SkipsNone program program [] := by
  rintro other - ⟨number, -, above, below⟩
  exact absurd below (UInt64.not_lt.mpr above)

theorem SkipsNone.append (skips : supply.SkipsNone program middle ids)
    (skipsMore : supply.SkipsNone middle after more)
    (known : supply.keys middle = supply.keys program) :
    supply.SkipsNone program after (ids ++ more) := by
  rintro other unused ⟨number, named, above, below⟩
  by_cases early : number < supply.count middle
  · exact List.mem_append_left more (skips other unused ⟨number, named, above, early⟩)
  · have late : supply.count middle ≤ number := UInt64.not_lt.mp early
    apply List.mem_append_right ids
    exact skipsMore other (known ▸ unused) ⟨number, named, late, below⟩

/-- What was handed out, when nothing was skipped, are the next identifiers. -/
theorem Took.mem_iff_imminent (took : supply.Took program after ids)
    (skips : supply.SkipsNone program after ids) (id : String) :
    id ∈ ids ↔ supply.Imminent program ids.length id := by
  constructor
  · intro taken
    refine ⟨took.ahead taken, ?_⟩
    intro earlier nodup before
    obtain ⟨last, namedLast, -, belowLast⟩ := took.numbered id taken
    have taken_earlier : ∀ other ∈ earlier, other ∈ ids := by
      intro other isEarlier
      obtain ⟨⟨unused, number, named, above, -⟩, first, next, isFirst, isNext, less⟩ :=
        before other isEarlier
      obtain rfl : number = first := countId_injective (named.symm.trans isFirst)
      obtain rfl : last = next := countId_injective (namedLast.symm.trans isNext)
      exact skips other unused ⟨number, named, above, UInt64.lt_trans less belowLast⟩
    have apart : id ∉ earlier := fun isEarlier => Precedes.irrefl id (before id isEarlier).2
    have distinct : (id :: earlier).Nodup := List.nodup_cons.mpr ⟨apart, nodup⟩
    have inside : id :: earlier ⊆ ids := List.cons_subset.mpr ⟨taken, taken_earlier⟩
    exact (List.Nodup.subperm distinct inside).length_le
  · rintro ⟨⟨unused, number, named, above, belowLast⟩, few⟩
    by_contra other
    -- An identifier that was not handed out lies behind all that were.
    have late : supply.count after ≤ number :=
      UInt64.not_lt.mp fun early => other (skips id unused ⟨number, named, above, early⟩)
    have here : Numbered (supply.count after) lastCount id := ⟨number, named, late, belowLast⟩
    have allBefore : ∀ taken ∈ ids, supply.Ahead program taken ∧ Precedes taken id :=
      fun taken isTaken => ⟨took.ahead isTaken, .of_numbered (took.numbered taken isTaken) here⟩
    exact Nat.lt_irrefl _ (few ids took.nodup allBefore)

end Supply

namespace Program

variable {program after : Program}

theorem allocateExpression_skipsNone {id : ExpressionId}
    (done : allocateExpression program = .ok id after) :
    Supply.expressions.SkipsNone program after [id] := by
  have granted : Supply.expressions.allocate program = .ok id after := done
  exact (Supply.allocate_skipsNone granted).2

/-- A default node takes its operands from the counter of the expressions, changes nothing but
that counter, and leaves no free identifier behind. -/
theorem newExpression_takes {kind : ExpressionKind} {node : Expression}
    (done : newExpression kind program = .ok node after) :
    node.kind = kind ∧ after = { program with expressionCount := after.expressionCount } ∧
      Supply.expressions.SkipsNone program after node.operands := by
  cases kind with
  | constant =>
      cases done
      exact ⟨rfl, rfl, Supply.skipsNone_nothing _ _⟩
  | read =>
      cases done
      exact ⟨rfl, rfl, Supply.skipsNone_nothing _ _⟩
  | negate =>
      obtain ⟨operand, middle, asked, rest⟩ := grow_bind_eq_ok done
      cases rest
      exact ⟨rfl, (allocateExpression_eq_ok asked).1, allocateExpression_skipsNone asked⟩
  | binary operator =>
      obtain ⟨left, middle, askedLeft, rest⟩ := grow_bind_eq_ok done
      obtain ⟨right, behind, askedRight, rest⟩ := grow_bind_eq_ok rest
      cases rest
      have sameLeft := (allocateExpression_eq_ok askedLeft).1
      have sameRight := (allocateExpression_eq_ok askedRight).1
      have known : Supply.expressions.keys middle = Supply.expressions.keys program := by
        rw [sameLeft]
        rfl
      refine ⟨rfl, ?_, (allocateExpression_skipsNone askedLeft).append
        (allocateExpression_skipsNone askedRight) known⟩
      rw [sameRight, sameLeft]

end Program

theorem Edit.kind_adjust (value : Option Float) (name : Option String) (node : Expression) :
    (adjust value name node).kind = node.kind := by
  cases node <;> rfl

/-- Filling an expression stores a node of the kind that was asked for, with the reported slots
as operands, and changes nothing else but the counter of the expressions.  The slots are
distinct, none was in use, and all are holes, but for the identifier that was filled itself.
That one is among the slots exactly if it was one of the next to be handed out, as many as
the node has operands. -/
theorem Edit.filled_slots_are_holes_elsewhere {program after : Program} {id : ExpressionId}
    {word : String} {value : Option Float} {name : Option String} {slots : Slots}
    (done : fillExpression id word value name program = .ok slots after) :
    ∃ node : Expression,
      ExpressionKind.parse word = .ok node.kind ∧
      slots = ⟨node.operands, []⟩ ∧
      after = { program with
        expressions := program.expressions.insert id node
        expressionCount := after.expressionCount } ∧
      slots.expressions.Nodup ∧
      (∀ slot ∈ slots.expressions, slot ∉ program.expressions.keys) ∧
      (∀ slot ∈ slots.expressions, slot ≠ id → after.expression? slot = none) ∧
      (id ∈ slots.expressions ↔
        Supply.expressions.Imminent program slots.expressions.length id) := by
  obtain ⟨kind, built, middle, named, -, grown, rfl, rfl⟩ := fillExpression_eq_ok done
  obtain ⟨rfl, same, skips⟩ := Program.newExpression_takes grown
  have took : Supply.expressions.Took program middle built.operands :=
    (Program.newExpression_eq_ok grown).tookHoles
  refine ⟨adjust value name built, ?_, ?_, ?_, took.nodup, took.fresh, ?_,
    took.mem_iff_imminent skips id⟩
  · rw [kind_adjust, named]
  · rw [operands_adjust]
  · rw [same]
    rfl
  · intro slot isSlot differs
    rw [Program.setExpression, Program.expression?, Arena.set, Arena.find?_insert, if_neg differs,
      same, Arena.find?_eq_none_iff]
    exact took.fresh slot isSlot

namespace Program

/-- Two expressions under identifiers that the counter has not reached. -/
def laggingExpressions : Program :=
  { empty with expressions := Arena.ofEntries [("0", .constant 1), ("2", .read "x")] }

/-- The sum takes the free identifiers between and behind the expressions, and the one that is
filled comes right after them. -/
theorem laggingExpressions_filled :
    ∃ after, Edit.fillExpression "4" "add" none none laggingExpressions =
        .ok ⟨["1", "3"], []⟩ after ∧
      after.expression? "1" = none ∧ after.expression? "3" = none ∧
      ¬ Supply.expressions.Imminent laggingExpressions 2 "4" := by
  obtain ⟨after, done⟩ : ∃ after, Edit.fillExpression "4" "add" none none laggingExpressions =
      .ok ⟨["1", "3"], []⟩ after :=
    ⟨_, by with_unfolding_all rfl⟩
  obtain ⟨node, -, -, -, -, -, holes, own⟩ := Edit.filled_slots_are_holes_elsewhere done
  refine ⟨after, done, holes "1" (by simp) (by decide), holes "3" (by simp) (by decide), ?_⟩
  intro imminent
  have isSlot := own.mpr imminent
  simp at isSlot

/-- In a new program the first identifier is filled with a negation, and the slot that is
reported for the operand is this very identifier: the negation is its own operand. -/
theorem empty_filled_with_itself :
    ∃ after, Edit.fillExpression "0" "not" none none empty = .ok ⟨["0"], []⟩ after ∧
      after.expression? "0" = some (.negate "0") :=
  ⟨_, by with_unfolding_all rfl, by with_unfolding_all rfl⟩

end Program

end BlockStage

import BlockStage.Proofs.IdentifierSupply
import Mathlib.Data.List.Perm.Subperm
import Mathlib.Order.Bounds.Defs

/-!
# The search for a free identifier

An allocator tries the numbers from its counter on, one after the other, and moves the counter
behind each number before it looks whether the rendering is a key.  The last value of the
counter cannot be passed, so its rendering is never handed out, free or not.  The rules of this
search are written down with the number of tries they take.  No rendering is tried twice, and
all but the last one that is tried are keys, so the search is over after at most one try more
than the table has entries.  What it finds is the least free number, or that there is none.
-/

namespace BlockStage

namespace Supply

/-- The program with another value of the counter of a table. -/
def withCount (supply : Supply) (program : Program) (count : UInt64) : Program :=
  match supply with
  | .expressions => { program with expressionCount := count }
  | .statements => { program with statementCount := count }
  | .lists => { program with listCount := count }

/-- The program with the counter of a table moved on by one. -/
def advance (supply : Supply) (program : Program) : Program :=
  supply.withCount program (supply.count program + 1)

/-- The number can be handed out: the counter has not passed it, it is not the last one, and its
rendering is no key. -/
structure Free (supply : Supply) (program : Program) (number : Nat) : Prop where
  count_le : (supply.count program).toNat ≤ number
  lt_last : number < lastCount.toNat
  unused : toString number ∉ supply.keys program

/-- The search of an allocator: from a program it leads to a result after a number of tries. -/
inductive Searches (supply : Supply) :
    Program → Nat → EStateM.Result CounterExhausted Program String → Prop where
  | overflows {program : Program} :
      supply.count program = lastCount → Searches supply program 1 (.error ⟨⟩ program)
  | finds {program : Program} :
      supply.count program ≠ lastCount → countId (supply.count program) ∉ supply.keys program →
      Searches supply program 1 (.ok (countId (supply.count program)) (supply.advance program))
  | passes {program : Program} {tries : Nat}
      {result : EStateM.Result CounterExhausted Program String} :
      supply.count program ≠ lastCount → countId (supply.count program) ∈ supply.keys program →
      Searches supply (supply.advance program) tries result →
      Searches supply program (tries + 1) result

variable {supply : Supply} {program : Program}

@[simp]
theorem count_withCount (count : UInt64) :
    supply.count (supply.withCount program count) = count := by
  cases supply <;> rfl

@[simp]
theorem keys_withCount (count : UInt64) :
    supply.keys (supply.withCount program count) = supply.keys program := by
  cases supply <;> rfl

@[simp]
theorem withCount_withCount (count next : UInt64) :
    supply.withCount (supply.withCount program count) next = supply.withCount program next := by
  cases supply <;> rfl

theorem withCount_count : supply.withCount program (supply.count program) = program := by
  cases supply <;> rfl

theorem keys_advance : supply.keys (supply.advance program) = supply.keys program :=
  keys_withCount _

theorem withCount_advance (next : UInt64) :
    supply.withCount (supply.advance program) next = supply.withCount program next :=
  withCount_withCount _ next

theorem toNat_count_advance (below : supply.count program ≠ lastCount) :
    (supply.count (supply.advance program)).toNat = (supply.count program).toNat + 1 := by
  rw [advance, count_withCount, toNat_add_one_of_ne_lastCount below]

theorem count_lt_last (below : supply.count program ≠ lastCount) :
    (supply.count program).toNat < lastCount.toNat := by
  have bound : (supply.count program).toNat ≤ lastCount.toNat :=
    Nat.le_of_lt_succ (supply.count program).toNat_lt
  have differs : (supply.count program).toNat ≠ lastCount.toNat :=
    fun equal => below (UInt64.toNat_inj.mp equal)
  omega

/-! ### One try -/

theorem allocate_of_last (last : supply.count program = lastCount) :
    supply.allocate program = .error ⟨⟩ program := by
  have exhausted (taken : String → Bool) :
      takeId taken (supply.count program) = (none, supply.count program) := by
    rw [takeId, if_pos last]
  cases supply
  all_goals
    simp only [count] at exhausted
    simp only [allocate, Program.allocateExpression, Program.allocateStatement,
      Program.allocateList, exhausted]

theorem allocate_of_free (below : supply.count program ≠ lastCount)
    (free : countId (supply.count program) ∉ supply.keys program) :
    supply.allocate program =
      .ok (countId (supply.count program)) (supply.advance program) := by
  have found (taken : String → Bool) (unused : taken (countId (supply.count program)) = false) :
      takeId taken (supply.count program) =
        (some (countId (supply.count program)), supply.count program + 1) := by
    rw [takeId, if_neg below, unused]
    rfl
  cases supply
  all_goals
    simp only [count] at found
    simp only [allocate, Program.allocateExpression, Program.allocateStatement,
      Program.allocateList, found _ ((Arena.contains_eq_false_iff _ _).mpr free)]
    rfl

theorem allocate_of_taken (below : supply.count program ≠ lastCount)
    (taken : countId (supply.count program) ∈ supply.keys program) :
    supply.allocate program = supply.allocate (supply.advance program) := by
  have passed (isTaken : String → Bool)
      (used : isTaken (countId (supply.count program)) = true) :
      takeId isTaken (supply.count program) = takeId isTaken (supply.count program + 1) := by
    rw [takeId, if_neg below, if_pos used]
  cases supply
  all_goals
    simp only [count] at passed
    simp only [allocate, advance, withCount, count, Program.allocateExpression,
      Program.allocateStatement, Program.allocateList,
      passed _ ((Arena.contains_iff _ _).mpr taken)]

/-- A number that is taken is not free, so passing it loses nothing. -/
theorem free_advance_iff (below : supply.count program ≠ lastCount)
    (taken : countId (supply.count program) ∈ supply.keys program) (number : Nat) :
    supply.Free (supply.advance program) number ↔ supply.Free program number := by
  have step := toNat_count_advance below
  constructor
  · rintro ⟨reached, ltLast, unused⟩
    exact ⟨by omega, ltLast, by rwa [keys_advance] at unused⟩
  · rintro ⟨reached, ltLast, unused⟩
    have apart : number ≠ (supply.count program).toNat := by
      rintro rfl
      exact unused taken
    exact ⟨by omega, ltLast, by rwa [keys_advance]⟩

/-! ### The whole search -/

namespace Searches

variable {tries : Nat} {result : EStateM.Result CounterExhausted Program String}

theorem eq_allocate (searches : supply.Searches program tries result) :
    result = supply.allocate program := by
  induction searches with
  | overflows last => rw [allocate_of_last last]
  | finds below free => rw [allocate_of_free below free]
  | passes below taken _ ih => rw [ih, allocate_of_taken below taken]

theorem tries_unique (searches : supply.Searches program tries result) {others : Nat}
    {other : EStateM.Result CounterExhausted Program String}
    (searchesToo : supply.Searches program others other) : others = tries := by
  induction searches generalizing others with
  | overflows last =>
      cases searchesToo with
      | overflows _ => rfl
      | finds below _ => exact absurd last below
      | passes below _ _ => exact absurd last below
  | finds below free =>
      cases searchesToo with
      | overflows last => exact absurd last below
      | finds _ _ => rfl
      | passes _ taken _ => exact absurd taken free
  | passes below taken _ ih =>
      cases searchesToo with
      | overflows last => exact absurd last below
      | finds _ free => exact absurd taken free
      | passes _ _ further => rw [ih further]

/-- All numbers that were tried before the last one are taken. -/
theorem mem_keys (searches : supply.Searches program tries result) {index : Nat}
    (early : index + 1 < tries) :
    toString ((supply.count program).toNat + index) ∈ supply.keys program := by
  induction searches generalizing index with
  | overflows _ => omega
  | finds _ _ => omega
  | passes below taken _ ih =>
      cases index with
      | zero => exact taken
      | succ index =>
          have further := @ih index (by omega)
          rwa [keys_advance, toNat_count_advance below, Nat.add_right_comm] at further

theorem tries_le (searches : supply.Searches program tries result) :
    tries ≤ (supply.keys program).length + 1 := by
  -- The renderings that were passed are different keys.
  let passed := (List.range (tries - 1)).map fun index =>
    toString ((supply.count program).toNat + index)
  have distinct : passed.Nodup := by
    apply List.Nodup.map _ List.nodup_range
    intro first second same
    have equal := toString_nat_injective same
    omega
  have areKeys : passed ⊆ supply.keys program := by
    intro id isPassed
    obtain ⟨index, inRange, rfl⟩ := List.mem_map.mp isPassed
    have early := List.mem_range.mp inRange
    exact searches.mem_keys (by omega)
  have fewer := (List.subperm_of_subset distinct areKeys).length_le
  simp only [passed, List.length_map, List.length_range] at fewer
  omega

/-- The search ends at the least free number, or at the end of the counter if there is none. -/
theorem least_or_none (searches : supply.Searches program tries result) :
    (∃ number next, IsLeast {candidate | supply.Free program candidate} number ∧
        next.toNat = number + 1 ∧
        result = .ok (toString number) (supply.withCount program next)) ∨
      ((∀ number, ¬ supply.Free program number) ∧
        result = .error ⟨⟩ (supply.withCount program lastCount)) := by
  induction searches with
  | @overflows program last =>
      right
      constructor
      · rintro number ⟨reached, ltLast, -⟩
        rw [last] at reached
        omega
      · rw [← last, withCount_count]
  | @finds program below free =>
      left
      refine ⟨(supply.count program).toNat, supply.count program + 1, ⟨?_, ?_⟩, ?_, rfl⟩
      · exact ⟨Nat.le_refl _, count_lt_last below, free⟩
      · exact fun other isFree => isFree.count_le
      · exact toNat_add_one_of_ne_lastCount below
  | passes below taken _ ih =>
      simpa only [free_advance_iff below taken, withCount_advance] using ih

end Searches

/-- Each try moves the counter on, and the counter has an end. -/
theorem exists_searches (supply : Supply) (program : Program) :
    ∃ tries result, supply.Searches program tries result := by
  induction left : lastCount.toNat - (supply.count program).toNat generalizing program with
  | zero =>
      have last : supply.count program = lastCount := by
        by_contra below
        have less := count_lt_last below
        omega
      exact ⟨1, _, .overflows last⟩
  | succ left ih =>
      have below : supply.count program ≠ lastCount := by
        intro last
        rw [last] at left
        omega
      by_cases taken : countId (supply.count program) ∈ supply.keys program
      · have step := toNat_count_advance below
        obtain ⟨tries, result, searches⟩ := ih (supply.advance program) (by omega)
        exact ⟨tries + 1, result, .passes below taken searches⟩
      · exact ⟨1, _, .finds below taken⟩

/-- An allocator hands out the rendering of the least number that is free, moves its counter right
behind that number and changes nothing else; if no number is free, the counter is exhausted.  It
finds this out after at most one try more than the table has entries. -/
theorem allocate_takes_least_free_number (supply : Supply) (program : Program) :
    ((∃ number next, IsLeast {candidate | supply.Free program candidate} number ∧
        next.toNat = number + 1 ∧
        supply.allocate program = .ok (toString number) (supply.withCount program next)) ∨
      ((∀ number, ¬ supply.Free program number) ∧
        supply.allocate program = .error ⟨⟩ (supply.withCount program lastCount))) ∧
    ∃ tries, tries ≤ (supply.keys program).length + 1 ∧
      ∀ count result, supply.Searches program count result ↔
        count = tries ∧ result = supply.allocate program := by
  obtain ⟨tries, result, searches⟩ := supply.exists_searches program
  obtain rfl := searches.eq_allocate
  refine ⟨searches.least_or_none, tries, searches.tries_le, ?_⟩
  intro count result
  constructor
  · exact fun found => ⟨searches.tries_unique found, found.eq_allocate⟩
  · rintro ⟨rfl, rfl⟩
    exact searches

end Supply

end BlockStage

import BlockStage.Proofs.ExecutedAssignments

/-!
# The words of a run

A snapshot shows an identifier of a statement and names of variables.  The identifier stands in a
list of the program, even if it leads to no statement, and each name is that of a variable the run
was seeded with or that an assignment of the program writes.  A run has no other words.
-/

namespace BlockStage

namespace Program

variable {program : Program} {statement : StatementId}

/-- The identifier stands in one of the lists. -/
def Lists (program : Program) (statement : StatementId) : Prop :=
  ∃ list items, program.list? list = some items ∧ statement ∈ items

/-- One of the assignments writes the variable. -/
def Assigns (program : Program) (name : String) : Prop :=
  ∃ statement value, program.statement? statement = some (.assign name value)

/-- A run of the program can have the variable. -/
def Knows (program : Program) (name : String) : Prop :=
  name ∈ ["angle", "x", "y"] ∨ program.Assigns name

theorem lists_of_mem_listOrEmpty {list : ListId} (member : statement ∈ program.listOrEmpty list) :
    program.Lists statement := by
  cases found : program.list? list with
  | none => simp [listOrEmpty, found] at member
  | some items => exact ⟨list, items, found, by simpa [listOrEmpty, found] using member⟩

end Program

/-- The statements that a frame can show. -/
def Frame.mentions : Frame → List StatementId
  | .sequence statements _ owner => owner.toList ++ statements
  | .loop statement _ _ => [statement]

theorem Frame.mem_mentions_of_lastTaken? {frame : Frame} {statement : StatementId}
    (taken : frame.lastTaken? = some statement) : statement ∈ frame.mentions := by
  cases frame with
  | sequence statements next owner =>
      cases next with
      | zero => cases taken
      | succ next => exact List.mem_append_right _ (List.mem_of_getElem? taken)
  | loop other condition body => cases taken

namespace Run

variable {program : Program} {run : Run} {snapshot : Snapshot}

/-! ### Statements -/

/-- Whatever the frames of a stack can show stands in a list. -/
def Listed (program : Program) (stack : List Frame) : Prop :=
  ∀ frame ∈ stack, ∀ statement ∈ frame.mentions, program.Lists statement

theorem Listed.sequence {list : ListId} {owner : Option StatementId} {stack : List Frame}
    (next : Nat) (owned : ∀ statement ∈ owner, program.Lists statement)
    (below : Listed program stack) :
    Listed program (.sequence (program.listOrEmpty list) next owner :: stack) := by
  refine List.forall_mem_cons.mpr ⟨?_, below⟩
  intro statement member
  rcases List.mem_append.mp member with isOwner | isItem
  · exact owned statement (Option.mem_toList.mp isOwner)
  · exact Program.lists_of_mem_listOrEmpty isItem

theorem Stacked.listed {stack : List Frame} (stacked : Stacked program stack) :
    Listed program stack := by
  -- The owner of a body was taken out of the frame below, where it was listed before.
  have taken {below : Frame} {rest : List Frame} {statement : StatementId}
      (listed : Listed program (below :: rest)) (last : below.lastTaken? = some statement) :
      program.Lists statement :=
    listed below List.mem_cons_self statement (Frame.mem_mentions_of_lastTaken? last)
  induction stacked with
  | entry _ => exact .sequence _ (by simp) (by simp [Listed])
  | body _ _ _ last _ ih =>
      have owner := taken ih last
      exact ih.sequence _ (by simpa using owner)
  | round _ _ ih =>
      obtain ⟨own, -⟩ := List.forall_mem_cons.mp ih
      exact ih.sequence _ (by simpa [Frame.mentions] using own)
  | loop _ last _ ih =>
      have owner := taken ih last
      exact List.forall_mem_cons.mpr ⟨by simpa [Frame.mentions] using owner, ih⟩

theorem lists_of_advance {bindings : Bindings} {stack : List Frame} {stop : Stop}
    (listed : Listed program stack) (stopped : advance program bindings stack = some stop) :
    program.Lists stop.statement := by
  induction stack with
  | nil => cases stopped
  | cons frame rest ih =>
      obtain ⟨own, below⟩ := List.forall_mem_cons.mp listed
      cases frame with
      | sequence statements next owner =>
          simp only [advance] at stopped
          split at stopped
          · rename_i statement upcoming
            cases stopped
            exact own statement (List.mem_append_right _ (List.mem_of_getElem? upcoming))
          · split at stopped
            · cases stopped
              exact own _ List.mem_cons_self
            · exact ih below stopped
      | loop statement condition body =>
          simp only [advance] at stopped
          split at stopped
          · cases stopped
            cases entered : program.listOrEmpty body with
            | nil => exact own statement List.mem_cons_self
            | cons first others =>
                have isFirst : first ∈ program.listOrEmpty body := by simp [entered]
                exact Program.lists_of_mem_listOrEmpty isFirst
          · exact ih below stopped

/-- A pending statement was taken out of a list. -/
theorem WellShaped.lists_pending {statement : StatementId} (shaped : WellShaped program run)
    (pending : run.pending = some statement) : program.Lists statement := by
  unfold WellShaped at shaped
  split at shaped
  · rw [shaped.2] at pending
    cases pending
  · obtain ⟨stacked, taken⟩ := shaped
    obtain ⟨frame, rest, stack_eq, last⟩ := exists_of_lastTaken? (taken statement pending)
    rw [stack_eq] at stacked
    exact stacked.listed frame List.mem_cons_self statement
      (Frame.mem_mentions_of_lastTaken? last)
  · rw [shaped.2] at pending
    cases pending

theorem lists_of_result {traced : Bool} {count : Nat}
    (shown : (start traced).result program count = some snapshot) :
    program.Lists snapshot.statement := by
  have shaped := wellShaped_after program traced count
  rcases step_cases shaped with
    ⟨-, -, stepped⟩ | ⟨bindings, stack, stacked, stepped⟩ | ⟨statement, value, pending, -, stepped⟩
  · rw [result, stepped] at shown
    cases shown
  · rw [result, stepped] at shown
    cases stopped : advance program bindings stack with
    | none =>
        simp only [proceed, stopped] at shown
        cases shown
    | some stop =>
        simp only [proceed, stopped, emit, Option.some.injEq] at shown
        rw [← shown]
        exact lists_of_advance stacked.listed stopped
  · rw [result, stepped] at shown
    cases shown
    exact shaped.lists_pending pending

/-! ### Variables -/

theorem assigns_of_assignment? {write : String × Float}
    (assigned : run.assignment? program = some write) : program.Assigns write.1 := by
  unfold assignment? at assigned
  split at assigned
  · rename_i statement _ _
    unfold Program.assignment? at assigned
    split at assigned
    · rename_i name value node
      cases assigned
      exact ⟨statement, value, node⟩
    · cases assigned
  · cases assigned

theorem knows_of_mem_set {bindings : Bindings} {name : String} {value : Float}
    {pair : String × Float} (known : ∀ pair ∈ bindings.pairs, program.Knows pair.1)
    (knownName : program.Knows name) (member : pair ∈ (bindings.set name value).pairs) :
    program.Knows pair.1 := by
  rcases Bindings.fst_of_mem_place member with same | ⟨old, isOld, same⟩
  · exact same ▸ knownName
  · exact same ▸ known old isOld

theorem knows_of_mem_after {traced : Bool} {count : Nat} {pair : String × Float}
    (member : pair ∈ ((start traced).after program count).bindings.pairs) :
    program.Knows pair.1 := by
  induction count generalizing pair with
  | zero =>
      have special (name : String) (isSpecial : name ∈ ["angle", "x", "y"]) :
          program.Knows name := Or.inl isSpecial
      have unset : ∀ pair ∈ Bindings.empty.pairs, program.Knows pair.1 := by simp [Bindings.empty]
      refine knows_of_mem_set (fun _ => ?_) (special "angle" (by simp)) member
      refine knows_of_mem_set (fun _ => ?_) (special "y" (by simp))
      exact knows_of_mem_set unset (special "x" (by simp))
  | succ count ih =>
      rw [after, bindings_step_eq] at member
      cases assigned : ((start traced).after program count).assignment? program with
      | none =>
          rw [assigned] at member
          exact ih member
      | some write =>
          rw [assigned] at member
          exact knows_of_mem_set (fun _ => ih) (Or.inr (assigns_of_assignment? assigned)) member

theorem knows_of_result {traced : Bool} {count : Nat}
    (shown : (start traced).result program count = some snapshot) {pair : String × Float}
    (member : pair ∈ snapshot.values) : program.Knows pair.1 := by
  have stands := (step_standsAt (owners_after program traced count)).2 snapshot shown
  have captured : snapshot.values = ((start traced).after program (count + 1)).bindings.pairs :=
    congrArg Snapshot.values stands.captured
  exact knows_of_mem_after (captured ▸ member)

end Run

end BlockStage

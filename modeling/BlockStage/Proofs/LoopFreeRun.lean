import BlockStage.Proofs.ProgramParts
import BlockStage.Proofs.RunFrames
import Mathlib.Data.List.Chain
import Mathlib.Data.List.Perm.Subperm
import Mathlib.Data.Nat.Find

/-!
# Runs without loops

Without loops a run can go on for ever only by entering bodies inside of bodies without end,
and that takes a list that leads back to itself.  So a program whose lists do not lead back to
themselves comes to its end, whatever its conditions are.  Lists may be shared, and the number
of steps then grows much faster than the program, so no count of the stored statements bounds
the run.  What bounds it is how deep bodies are nested: a walk that is cut off at a limit has
entered that many bodies one inside of the other, and the stack of a run is at no time higher
than such a row of bodies is long.
-/

namespace BlockStage

namespace Program

/-- A statement of the outer list has the inner one as a body. -/
def Nests (program : Program) (outer inner : ListId) : Prop :=
  ∃ statement, program.Refers (.list outer) (.statement statement) ∧
    program.Refers (.statement statement) (.list inner)

/-- The bodies are nested: the first one in the given list, and each other one in the body
before it. -/
def IsNesting (program : Program) (list : ListId) (bodies : List ListId) : Prop :=
  (list :: bodies).IsChain program.Nests

/-- From the entry list no list leads back to itself, and no loop is met. -/
structure IsLayered (program : Program) : Prop where
  acyclic : ∀ list, program.Reaches (.list entryList) (.list list) →
    ¬ Relation.TransGen program.Nests list list
  loopFree : ∀ statement condition body,
    program.Reaches (.list entryList) (.statement statement) →
      program.statement? statement ≠ some (.loop condition body)

section Nesting

variable {program : Program} {list : ListId} {bodies : List ListId}

theorem Nests.reaches {outer inner : ListId} (nests : program.Nests outer inner) :
    program.Reaches (.list outer) (.list inner) := by
  obtain ⟨statement, item, body⟩ := nests
  exact .head item (.single body)

/-- Only a list that is stored has statements. -/
theorem Nests.mem_keys {outer inner : ListId} (nests : program.Nests outer inner) :
    outer ∈ program.lists.keys := by
  obtain ⟨statement, item, -⟩ := nests
  cases item with
  | item member =>
      cases found : program.list? outer with
      | none => simp [listOrEmpty, found] at member
      | some items => exact Arena.mem_keys_of_find? found

def bodiesIn (program : Program) (list : ListId) : List ListId :=
  (program.listOrEmpty list).flatMap fun statement =>
    (program.statement? statement).toList.flatMap Statement.bodies

theorem Nests.mem_bodiesIn {outer inner : ListId} (nests : program.Nests outer inner) :
    inner ∈ program.bodiesIn outer := by
  obtain ⟨statement, item, body⟩ := nests
  cases item with
  | item member =>
      cases body with
      | body node isBody => exact List.mem_flatMap.mpr ⟨statement, member, by simp [node, isBody]⟩

theorem isNesting_nil (program : Program) (list : ListId) : program.IsNesting list [] :=
  List.isChain_singleton list

theorem isNesting_cons {body : ListId} :
    program.IsNesting list (body :: bodies) ↔
      program.Nests list body ∧ program.IsNesting body bodies :=
  List.isChain_cons_cons

theorem IsNesting.reaches (nesting : program.IsNesting list bodies) {inner : ListId}
    (member : inner ∈ list :: bodies) : program.Reaches (.list list) (.list inner) := by
  induction bodies generalizing list with
  | nil =>
      obtain rfl := List.mem_singleton.mp member
      exact .refl
  | cons body rest ih =>
      obtain ⟨nests, deeper⟩ := isNesting_cons.mp nesting
      rcases List.mem_cons.mp member with rfl | below
      · exact .refl
      · exact nests.reaches.trans (ih deeper below)

theorem IsNesting.mem_keys (nesting : program.IsNesting list bodies) {outer : ListId}
    (member : outer ∈ (list :: bodies).dropLast) : outer ∈ program.lists.keys := by
  induction bodies generalizing list with
  | nil => cases member
  | cons body rest ih =>
      obtain ⟨nests, deeper⟩ := isNesting_cons.mp nesting
      rw [List.dropLast_cons_cons] at member
      rcases List.mem_cons.mp member with rfl | below
      · exact nests.mem_keys
      · exact ih deeper below

/-- A nesting that goes on at its innermost body. -/
theorem IsNesting.concat {innermost body : ListId} (nesting : program.IsNesting list bodies)
    (last : (list :: bodies).getLast? = some innermost) (nests : program.Nests innermost body) :
    program.IsNesting list (bodies ++ [body]) := by
  have joined : ((list :: bodies) ++ [body]).IsChain program.Nests := by
    refine List.isChain_append.mpr ⟨nesting, List.isChain_singleton body, ?_⟩
    intro outer isLast inner isFirst
    cases last.symm.trans isLast
    cases isFirst
    exact nests
  exact joined

end Nesting

/-! ### Layers -/

section Layers

variable {program : Program} {layer : ListId → Nat}

/-- Lists on numbered layers, with bodies only on layers below, are nested no deeper than the
number of their layer. -/
theorem IsNesting.length_le_layer
    (falls : ∀ outer inner, program.Nests outer inner → layer inner < layer outer) {list : ListId}
    {bodies : List ListId} (nesting : program.IsNesting list bodies) :
    bodies.length ≤ layer list := by
  induction bodies generalizing list with
  | nil => exact Nat.zero_le _
  | cons body rest ih =>
      obtain ⟨nests, deeper⟩ := isNesting_cons.mp nesting
      have below := falls list body nests
      have short := ih deeper
      rw [List.length_cons]
      omega

theorem not_transGen_of_layer
    (falls : ∀ outer inner, program.Nests outer inner → layer inner < layer outer)
    (list : ListId) : ¬ Relation.TransGen program.Nests list list := by
  intro cycle
  have sinks {outer inner : ListId} (leads : Relation.TransGen program.Nests outer inner) :
      layer inner < layer outer := by
    induction leads with
    | single nests => exact falls _ _ nests
    | tail _ nests ih => exact Nat.lt_trans (falls _ _ nests) ih
  exact Nat.lt_irrefl _ (sinks cycle)

end Layers

namespace IsLayered

variable {program : Program} {bodies : List ListId}

theorem nodup (layered : program.IsLayered) (nesting : program.IsNesting entryList bodies) :
    (entryList :: bodies).Nodup := by
  have ordered : (entryList :: bodies).Pairwise (Relation.TransGen program.Nests) :=
    List.isChain_iff_pairwise.mp (nesting.imp fun _ _ => Relation.TransGen.single)
  apply ordered.imp_of_mem
  rintro outer inner isOuter - leads rfl
  exact layered.acyclic outer (nesting.reaches isOuter) leads

/-- All bodies but the innermost are stored, each under its own identifier. -/
theorem length_le (layered : program.IsLayered) (nesting : program.IsNesting entryList bodies) :
    bodies.length ≤ program.lists.keys.length := by
  have distinct : (entryList :: bodies).dropLast.Nodup :=
    (layered.nodup nesting).sublist (List.dropLast_sublist _)
  have stored : (entryList :: bodies).dropLast ⊆ program.lists.keys :=
    fun outer member => nesting.mem_keys member
  have counted := (List.Nodup.subperm distinct stored).length_le
  simpa using counted

theorem exists_longest (layered : program.IsLayered) :
    ∃ longest, program.IsNesting entryList longest ∧
      ∀ bodies, program.IsNesting entryList bodies → bodies.length ≤ longest.length := by
  classical
  let IsLength (length : Nat) : Prop :=
    ∃ bodies, program.IsNesting entryList bodies ∧ bodies.length = length
  have shortest : IsLength 0 := ⟨[], isNesting_nil program entryList, rfl⟩
  obtain ⟨longest, nesting, isGreatest⟩ :=
    Nat.findGreatest_spec (Nat.zero_le program.lists.keys.length) shortest
  refine ⟨longest, nesting, ?_⟩
  intro bodies other
  rw [isGreatest]
  exact Nat.le_findGreatest (layered.length_le other) ⟨bodies, other, rfl⟩

theorem statement?_ne_loop (layered : program.IsLayered) {list : ListId} {statement : StatementId}
    (reached : program.Reaches (.list entryList) (.list list))
    (member : statement ∈ program.listOrEmpty list) (condition : ExpressionId) (body : ListId) :
    program.statement? statement ≠ some (.loop condition body) :=
  layered.loopFree statement condition body (reached.tail (.item member))

end IsLayered

/-! ### The walk comes to its end -/

section Walks

variable {program : Program}

theorem exists_cut_of_walkList {visit : StatementId → Bindings → Walked}
    {statements : List StatementId} {bindings : Bindings}
    (cut : (walkList visit statements bindings).final = none) :
    ∃ statement ∈ statements, ∃ before, (visit statement before).final = none := by
  induction statements generalizing bindings with
  | nil => cases cut
  | cons statement rest ih =>
      simp only [walkList, Walked.showing] at cut
      rcases Walked.final_andThen_eq_none cut with cutHere | ⟨next, -, cutLater⟩
      · exact ⟨statement, List.mem_cons_self, bindings, cutHere⟩
      · obtain ⟨later, member, before, cutThere⟩ := ih cutLater
        exact ⟨later, List.mem_cons_of_mem statement member, before, cutThere⟩

theorem exists_cut_of_walkBody {visit : StatementId → Bindings → Walked} {owner : StatementId}
    {body : List StatementId} {bindings : Bindings}
    (cut : (walkBody visit owner body bindings).final = none) :
    ∃ statement ∈ body, ∃ before, (visit statement before).final = none := by
  cases body with
  | nil => cases cut
  | cons first rest => exact exists_cut_of_walkList cut

/-- A visit that is cut off, and not in a loop, is cut off in a body. -/
theorem exists_body_of_visit {limit : Nat} {statement : StatementId} {bindings : Bindings}
    (loopFree : ∀ condition body, program.statement? statement ≠ some (.loop condition body))
    (cut : (program.visit (limit + 1) statement bindings).final = none) :
    ∃ body, program.Refers (.statement statement) (.list body) ∧
      ∃ inner ∈ program.listOrEmpty body, ∃ before,
        (program.visit limit inner before).final = none := by
  cases node : program.statement? statement with
  | none =>
      simp only [visit, node] at cut
      cases cut
  | some found =>
      simp only [visit, node] at cut
      cases found with
      | assign name value => cases cut
      | branch condition thenBody elseBody =>
          refine ⟨_, .body node ?_, exists_cut_of_walkBody cut⟩
          split <;> simp [Statement.bodies]
      | loop condition body => exact absurd node (loopFree condition body)
      | sleep duration => cases cut

/-- A walk that is cut off has entered as many bodies, one inside of the other, as its limit
allows. -/
theorem IsLayered.exists_nesting_of_cut (layered : program.IsLayered) {limit : Nat}
    {list : ListId} (reached : program.Reaches (.list entryList) (.list list))
    {statement : StatementId} (member : statement ∈ program.listOrEmpty list)
    {bindings : Bindings} (cut : (program.visit limit statement bindings).final = none) :
    ∃ bodies, program.IsNesting list bodies ∧ bodies.length = limit := by
  induction limit generalizing list statement bindings with
  | zero => exact ⟨[], isNesting_nil program list, rfl⟩
  | succ limit ih =>
      obtain ⟨body, isBody, inner, innerMember, before, innerCut⟩ :=
        exists_body_of_visit (layered.statement?_ne_loop reached member) cut
      have nests : program.Nests list body := ⟨statement, .item member, isBody⟩
      obtain ⟨bodies, nesting, count⟩ := ih (reached.trans nests.reaches) innerMember innerCut
      refine ⟨body :: bodies, isNesting_cons.mpr ⟨nests, nesting⟩, ?_⟩
      rw [List.length_cons, count]

theorem IsLayered.walkEnds (layered : program.IsLayered) :
    ∃ shown final, program.WalkEnds shown final := by
  obtain ⟨longest, -, isLongest⟩ := layered.exists_longest
  let limit := longest.length + 1
  cases ended : (program.walk limit).final with
  | some final => exact ⟨(program.walk limit).shown, final, limit, by rw [← ended]⟩
  | none =>
      obtain ⟨statement, member, before, cut⟩ := exists_cut_of_walkList ended
      obtain ⟨bodies, nesting, count⟩ := layered.exists_nesting_of_cut .refl member cut
      have short := isLongest bodies nesting
      omega

end Walks

end Program

namespace Run

variable {program : Program}

theorem phase_proceed_of_none {run : Run} {bindings : Bindings} {stack : List Frame}
    (ended : (run.proceed program bindings stack).1 = none) :
    (run.proceed program bindings stack).2.phase = .completed := by
  unfold proceed at ended ⊢
  split at ended
  · cases ended
  · rfl

theorem phase_step_of_none {run : Run} (shaped : WellShaped program run)
    (ended : (run.step program).1 = none) : (run.step program).2.phase = .completed := by
  obtain ⟨completed, -, stepped⟩ | ⟨bindings, stack, -, stepped⟩ | ⟨_, _, -, -, stepped⟩ :=
    step_cases shaped
  · rw [stepped]
    exact completed
  · rw [stepped] at ended ⊢
    exact phase_proceed_of_none ended
  · rw [stepped] at ended
    cases ended

/-- A walk that ends completes the run. -/
theorem exists_completed_of_walkEnds {shown : List Snapshot} {final : Bindings}
    (ends : program.WalkEnds shown final) (traced : Bool) :
    ∃ count, ((start traced).after program count).phase = .completed := by
  obtain ⟨limit, walked⟩ := ends
  have answers := (results_of_walk_ends traced walked).1 shown.length
  rw [List.getElem?_eq_none (Nat.le_refl _)] at answers
  exact ⟨shown.length + 1, phase_step_of_none (wellShaped_after program traced _) answers⟩

/-! ### The stack is as high as bodies are nested -/

theorem mem_of_lastTaken? {statements : List StatementId} {next : Nat}
    {owner : Option StatementId} {statement : StatementId}
    (taken : (Frame.sequence statements next owner).lastTaken? = some statement) :
    statement ∈ statements := by
  cases next with
  | zero => cases taken
  | succ next => exact List.mem_of_getElem? taken

/-- The frames of a stack walk lists that are nested one in the other, and the innermost of
them is on top. -/
theorem exists_nesting_of_stacked (layered : program.IsLayered) {stack : List Frame}
    (stacked : Stacked program stack) :
    ∃ bodies innermost next owner rest, program.IsNesting entryList bodies ∧
      (entryList :: bodies).getLast? = some innermost ∧
      stack = .sequence (program.listOrEmpty innermost) next owner :: rest ∧
      rest.length = bodies.length := by
  induction stacked with
  | @entry next _ =>
      exact ⟨[], entryList, next, none, [], Program.isNesting_nil program entryList, rfl, rfl, rfl⟩
  | @body statement condition thenBody elseBody body next below rest node chosen _ taken _ ih =>
      obtain ⟨bodies, innermost, position, owner, others, nesting, last, framed, count⟩ := ih
      obtain ⟨rfl, rfl⟩ := List.cons.inj framed
      have nests : program.Nests innermost body := by
        refine ⟨statement, .item (mem_of_lastTaken? taken), .body node ?_⟩
        rcases chosen with rfl | rfl <;> simp [Statement.bodies]
      refine ⟨bodies ++ [body], body, next, some statement, _, nesting.concat last nests, ?_, rfl,
        ?_⟩
      · rw [← List.cons_append, List.getLast?_concat]
      · simp [count]
  | round _ _ ih =>
      obtain ⟨_, _, _, _, _, _, _, framed, _⟩ := ih
      cases framed
  | @loop statement condition body below rest node taken _ ih =>
      obtain ⟨bodies, innermost, position, owner, others, nesting, last, framed, -⟩ := ih
      obtain ⟨rfl, rfl⟩ := List.cons.inj framed
      have reached := nesting.reaches (List.mem_of_getLast? last)
      exact absurd node
        (layered.statement?_ne_loop reached (mem_of_lastTaken? taken) condition body)

theorem depth_le_of_wellShaped (layered : program.IsLayered) {run : Run}
    (shaped : WellShaped program run) {height : Nat}
    (isHighest : ∀ bodies, program.IsNesting entryList bodies → bodies.length ≤ height) :
    run.depth ≤ 1 + height := by
  unfold WellShaped at shaped
  split at shaped
  · simp [depth, shaped.1]
  · obtain ⟨bodies, innermost, next, owner, rest, nesting, -, framed, count⟩ :=
      exists_nesting_of_stacked layered shaped.1
    have short := isHighest bodies nesting
    rw [depth, framed, List.length_cons, count]
    omega
  · simp [depth, shaped.1]

/-- A run without loops, of lists that do not lead back to themselves, comes to its end.  There
is a longest row of bodies nested one in the other, and at no time the run is deeper than that
row is long and one more, for the entry list. -/
theorem layered_run_completes {program : Program} (layered : program.IsLayered) (traced : Bool) :
    ∃ longest, program.IsNesting entryList longest ∧
      (∀ bodies, program.IsNesting entryList bodies → bodies.length ≤ longest.length) ∧
      (∃ count, ((start traced).after program count).phase = .completed) ∧
      ∀ count, ((start traced).after program count).depth ≤ 1 + longest.length := by
  obtain ⟨longest, nesting, isLongest⟩ := layered.exists_longest
  obtain ⟨shown, final, ends⟩ := layered.walkEnds
  refine ⟨longest, nesting, isLongest, exists_completed_of_walkEnds ends traced, ?_⟩
  intro count
  exact depth_le_of_wellShaped layered (wellShaped_after program traced count) isLongest

/-- A branch that stands twice in the entry list, and whose second body also hangs in its first
one.  One body and one statement are missing, and a condition is an operand of itself. -/
def sharedBranches : Program where
  statements := Arena.ofEntries
    [("0", .branch "0" "0" "1"), ("1", .branch "7" "9" "1"), ("2", .assign "x" "0")]
  expressions := Arena.ofEntries [("0", .negate "0")]
  lists := Arena.ofEntries [(entryList, ["0", "5", "0"]), ("0", ["1", "2"]), ("1", ["2"])]
  statementCount := 3
  expressionCount := 1
  listCount := 2

def sharedLayer (list : ListId) : Nat :=
  if list = entryList then 2 else if list = "0" then 1 else 0

theorem sharedBranches_falls (outer inner : ListId) (nests : sharedBranches.Nests outer inner) :
    sharedLayer inner < sharedLayer outer := by
  have falls : ∀ outer ∈ sharedBranches.lists.keys, ∀ inner ∈ sharedBranches.bodiesIn outer,
      sharedLayer inner < sharedLayer outer := by
    decide +kernel
  exact falls outer nests.mem_keys inner nests.mem_bodiesIn

theorem sharedBranches_isLayered : sharedBranches.IsLayered where
  acyclic list _ := Program.not_transGen_of_layer sharedBranches_falls list
  loopFree := by
    intro statement condition body _ node
    have loopFree : ∀ entry ∈ sharedBranches.statements.entries, entry.2.kind ≠ .loop := by
      decide +kernel
    exact loopFree _ ((Arena.mem_entries_iff _ _ _).mpr node) rfl

/-- The run of these branches ends, and it is never deeper than three frames. -/
theorem sharedBranches_completes :
    sharedBranches.IsLayered ∧
      (∃ count, ((start true).after sharedBranches count).phase = .completed) ∧
      ∀ count, ((start true).after sharedBranches count).depth ≤ 3 := by
  obtain ⟨longest, nesting, -, completes, depths⟩ :=
    layered_run_completes sharedBranches_isLayered true
  have short : longest.length ≤ 2 := nesting.length_le_layer sharedBranches_falls
  refine ⟨sharedBranches_isLayered, completes, ?_⟩
  intro count
  have bounded := depths count
  omega

end Run

end BlockStage

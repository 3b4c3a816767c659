import BlockStage.Run

/-!
# The turns of a step

A step of a run is a loop.  In each turn the loop applies the effect of the
pending statement, or looks at the innermost frame: it takes the next statement
of a list, leaves a list or a loop, or enters the body of a loop once more.
Some turns end the step with an answer, all others only change where the run
stands.  This file writes the loop out turn by turn and proves that it ends in
every run of every program, with the answer of `Run.step`.

A turn may put a frame on the stack without giving an answer, so the stack
alone does not measure the progress of the loop.  What makes it end is that the
body that was entered is looked at in the very next turn, and that this turn
shows its first statement or its owner.
-/

namespace BlockStage

namespace Run

/-- The part of a run that the turns of a step change. -/
structure Place where
  bindings : Bindings
  stack : List Frame
  pending : Option StatementId

/-- How many statements took effect and how many bodies were entered. -/
structure Work where
  effects : Nat
  entries : Nat

namespace Work

/-- A turn that only moves on. -/
def nothing : Work := ⟨0, 0⟩

def plus (first second : Work) : Work :=
  ⟨first.effects + second.effects, first.entries + second.entries⟩

end Work

/-- What comes of a turn: the loop goes on at a new place, or the step answers. -/
inductive Turn where
  | goesOn (work : Work) (place : Place)
  | answers (work : Work) (answer : Option Snapshot) (place : Place)

namespace Place

/-- Enters a body; a missing list is walked like an empty one. -/
def enter (place : Place) (program : Program) (body : ListId) (owner : StatementId) : Place :=
  { place with stack := .sequence (program.listOrEmpty body) 0 (some owner) :: place.stack }

/-- The turn in which the pending statement takes effect. -/
def effectTurn (place : Place) (program : Program) (statement : StatementId) : Turn :=
  match program.statement? statement with
  | none => .goesOn ⟨1, 0⟩ place
  | some (.assign name value) =>
      .goesOn ⟨1, 0⟩
        { place with bindings := place.bindings.set name (program.evaluate place.bindings value) }
  | some (.branch condition thenBody elseBody) =>
      .goesOn ⟨1, 1⟩
        (place.enter program
          (if isTruthy (program.evaluate place.bindings condition) then thenBody else elseBody)
          statement)
  | some (.loop condition body) =>
      .goesOn ⟨1, 0⟩ { place with stack := .loop statement condition body :: place.stack }
  | some (.sleep duration) =>
      .answers ⟨1, 0⟩
        (some (.capture statement place.bindings (some (program.evaluate place.bindings duration))))
        place

/-- The turn that looks at the innermost frame. -/
def frameTurn (place : Place) (program : Program) : Turn :=
  match place.stack with
  | [] => .answers .nothing none place
  | .sequence statements next owner :: rest =>
      match statements[next]? with
      | some statement =>
          .answers .nothing (some (.capture statement place.bindings none))
            { place with
              stack := .sequence statements (next + 1) owner :: rest
              pending := some statement }
      | none =>
          match statements, owner with
          | [], some owner =>
              .answers .nothing (some (.capture owner place.bindings none))
                { place with stack := rest }
          | _, _ => .goesOn .nothing { place with stack := rest }
  | .loop statement condition body :: rest =>
      if isTruthy (program.evaluate place.bindings condition) then
        .goesOn ⟨0, 1⟩ (place.enter program body statement)
      else .goesOn .nothing { place with stack := rest }

def turn (place : Place) (program : Program) : Turn :=
  match place.pending with
  | some statement => { place with pending := none }.effectTurn program statement
  | none => place.frameTurn program

end Place

/-- The loop that starts at a place ends after the given number of turns, with
an answer and at a last place, having done the given work. -/
inductive Loop (program : Program) :
    Place → Nat → Work → Option Snapshot → Place → Prop where
  | last {place last : Place} {work : Work} {answer : Option Snapshot} :
      place.turn program = .answers work answer last →
      Loop program place 1 work answer last
  | more {place middle last : Place} {work rest : Work} {turns : Nat}
      {answer : Option Snapshot} :
      place.turn program = .goesOn work middle →
      Loop program middle turns rest answer last →
      Loop program place (turns + 1) (work.plus rest) answer last

def place (run : Run) : Place := ⟨run.bindings, run.stack, run.pending⟩

/-- The same run at another place. -/
def moveTo (run : Run) (place : Place) : Run :=
  { run with bindings := place.bindings, stack := place.stack, pending := place.pending }

/-- Where the loop of a step starts: the first step enters the entry list. -/
def loopStart (run : Run) (program : Program) : Place :=
  match run.phase with
  | .ready => { run.place with stack := .sequence program.entry 0 none :: run.stack }
  | _ => run.place

/-- The run after its loop has ended with an answer at a place.  A snapshot is
counted and kept in the trace; without one the run is over. -/
def conclude (run : Run) (answer : Option Snapshot) (place : Place) : Run :=
  match answer with
  | some snapshot =>
      { run.moveTo place with
        phase := .running
        emitted := run.emitted + 1
        trace := run.trace.map (· ++ [snapshot]) }
  | none => { run.moveTo place with phase := .completed }

def after (run : Run) (program : Program) : Nat → Run
  | 0 => run
  | count + 1 => ((run.after program count).step program).2

/-- What the step behind a number of steps answers. -/
def result (run : Run) (program : Program) (count : Nat) : Option Snapshot :=
  ((run.after program count).step program).1

/-! ### A turn does not change what the step answers -/

/-- Leaving a frame or entering the body of a loop keeps the variables and the
place at which the walk stops next. -/
theorem advance_of_goesOn {program : Program} {place middle : Place} {work : Work}
    (turned : place.frameTurn program = .goesOn work middle) :
    middle.bindings = place.bindings ∧ middle.pending = place.pending ∧
      advance program place.bindings place.stack = advance program middle.bindings middle.stack := by
  obtain ⟨bindings, stack, pending⟩ := place
  cases stack with
  | nil => simp [Place.frameTurn] at turned
  | cons frame rest =>
      cases frame with
      | sequence statements next owner =>
          simp only [Place.frameTurn] at turned
          split at turned
          · cases turned
          · rename_i exhausted
            split at turned
            · cases turned
            · cases turned
              refine ⟨rfl, rfl, ?_⟩
              simp only [advance, exhausted]
      | loop statement condition body =>
          simp only [Place.frameTurn] at turned
          split at turned
          · rename_i holds
            cases turned
            refine ⟨rfl, rfl, ?_⟩
            simp only [advance, holds, if_true, Place.enter]
            cases program.listOrEmpty body with
            | nil => rfl
            | cons first others => rfl
          · rename_i fails
            cases turned
            exact ⟨rfl, rfl, by simp only [advance, fails, if_false, Bool.false_eq_true]⟩

/-- A frame that answers is where the walk stops next. -/
theorem proceed_of_answers {program : Program} {run : Run} {place last : Place} {work : Work}
    {answer : Option Snapshot} (settled : place.pending = none)
    (turned : place.frameTurn program = .answers work answer last) :
    run.proceed program place.bindings place.stack = (answer, run.conclude answer last) := by
  obtain ⟨bindings, stack, pending⟩ := place
  obtain rfl : pending = none := settled
  cases stack with
  | nil =>
      cases turned
      rfl
  | cons frame rest =>
      cases frame with
      | sequence statements next owner =>
          simp only [Place.frameTurn] at turned
          split at turned
          · rename_i upcoming
            cases turned
            simp only [proceed, advance, upcoming]
            rfl
          · rename_i exhausted
            split at turned
            · cases turned
              simp only [proceed, advance, exhausted]
              rfl
            · cases turned
      | loop statement condition body =>
          simp only [Place.frameTurn] at turned
          split at turned <;> cases turned

theorem step_of_pending_none (run : Run) (program : Program) (running : run.phase = .running)
    (settled : run.pending = none) :
    run.step program = run.proceed program run.bindings run.stack := by
  simp only [step, running, settled]

/-- A turn that answers gives the answer of the step. -/
theorem step_of_answers {program : Program} {run : Run} {last : Place} {work : Work}
    {answer : Option Snapshot} (running : run.phase = .running)
    (turned : run.place.turn program = .answers work answer last) :
    run.step program = (answer, run.conclude answer last) := by
  cases waiting : run.pending with
  | none =>
      have framed : run.place.frameTurn program = .answers work answer last := by
        simpa only [Place.turn, place, waiting] using turned
      rw [step_of_pending_none run program running waiting]
      exact proceed_of_answers waiting framed
  | some statement =>
      simp only [Place.turn, place, waiting, Place.effectTurn] at turned
      split at turned <;> cases turned
      rename_i sleeping
      simp only [step, running, waiting, effect, sleeping]
      rfl

/-- A turn that goes on leaves the answer of the step as it was. -/
theorem step_of_goesOn {program : Program} {run : Run} {middle : Place} {work : Work}
    (running : run.phase = .running)
    (turned : run.place.turn program = .goesOn work middle) :
    run.step program = (run.moveTo middle).step program := by
  cases waiting : run.pending with
  | none =>
      have framed : run.place.frameTurn program = .goesOn work middle := by
        simpa only [Place.turn, place, waiting] using turned
      obtain ⟨sameBindings, samePending, sameStop⟩ := advance_of_goesOn framed
      have settled : (run.moveTo middle).pending = none := by
        rw [← waiting]
        exact samePending
      rw [step_of_pending_none run program running waiting,
        step_of_pending_none (run.moveTo middle) program running settled]
      simp only [place] at sameBindings sameStop
      simp only [proceed, moveTo, sameStop, sameBindings]
      rfl
  | some statement =>
      simp only [Place.turn, place, waiting, Place.effectTurn] at turned
      split at turned <;> cases turned <;> rename_i node
      all_goals
        rw [step_of_pending_none (run.moveTo _) program running rfl]
        simp only [step, running, waiting, effect, node]
        rfl

/-- The loop of a running run ends with the answer of the step. -/
theorem step_of_loop {program : Program} {run : Run} {last : Place} {turns : Nat} {work : Work}
    {answer : Option Snapshot} (running : run.phase = .running)
    (loop : Loop program run.place turns work answer last) :
    run.step program = (answer, run.conclude answer last) := by
  generalize start : run.place = first at loop
  induction loop generalizing run with
  | last turned => exact step_of_answers running (start ▸ turned)
  | @more place middle last work rest turns answer turned _ ih =>
      calc
        run.step program = (run.moveTo middle).step program :=
          step_of_goesOn running (start ▸ turned)
        _ = (answer, (run.moveTo middle).conclude answer last) := ih running rfl
        _ = (answer, run.conclude answer last) := by cases answer <;> rfl

/-! ### The loop ends -/

/-- The loop that starts at a place ends within so many turns, with at most so
many effects and entered bodies. -/
def EndsWithin (program : Program) (place : Place) (turnLimit effectLimit entryLimit : Nat) :
    Prop :=
  ∃ turns work answer last, Loop program place turns work answer last ∧
    turns ≤ turnLimit ∧ work.effects ≤ effectLimit ∧ work.entries ≤ entryLimit

namespace EndsWithin

variable {program : Program} {place middle last : Place} {work : Work} {answer : Option Snapshot}
variable {turnLimit effectLimit entryLimit : Nat}

theorem of_answers (turned : place.turn program = .answers work answer last) :
    EndsWithin program place 1 work.effects work.entries :=
  ⟨1, work, answer, last, .last turned, Nat.le_refl _, Nat.le_refl _, Nat.le_refl _⟩

theorem of_goesOn (turned : place.turn program = .goesOn work middle)
    (ends : EndsWithin program middle turnLimit effectLimit entryLimit) :
    EndsWithin program place (turnLimit + 1) (work.effects + effectLimit)
      (work.entries + entryLimit) := by
  obtain ⟨turns, rest, answer, last, loop, few, effects, entries⟩ := ends
  refine ⟨turns + 1, work.plus rest, answer, last, .more turned loop, ?_, ?_, ?_⟩
  · exact Nat.add_le_add_right few 1
  · exact Nat.add_le_add_left effects work.effects
  · exact Nat.add_le_add_left entries work.entries

theorem mono {turnLimit' effectLimit' entryLimit' : Nat}
    (ends : EndsWithin program place turnLimit effectLimit entryLimit)
    (turnsLe : turnLimit ≤ turnLimit') (effectsLe : effectLimit ≤ effectLimit')
    (entriesLe : entryLimit ≤ entryLimit') :
    EndsWithin program place turnLimit' effectLimit' entryLimit' := by
  obtain ⟨turns, work, answer, last, loop, few, effects, entries⟩ := ends
  exact ⟨turns, work, answer, last, loop, Nat.le_trans few turnsLe,
    Nat.le_trans effects effectsLe, Nat.le_trans entries entriesLe⟩

end EndsWithin

/-- The turn behind the entering of a body answers: it shows the first statement
of the body, or the owner of an empty one. -/
theorem endsWithin_enter (program : Program) (place : Place) (body : ListId)
    (owner : StatementId) (settled : place.pending = none) :
    EndsWithin program (place.enter program body owner) 1 0 0 := by
  have answers : ∃ answer last,
      (place.enter program body owner).turn program = .answers .nothing answer last := by
    simp only [Place.enter, Place.turn, Place.frameTurn, settled]
    cases program.listOrEmpty body with
    | nil => exact ⟨_, _, rfl⟩
    | cons first others => exact ⟨_, _, rfl⟩
  obtain ⟨answer, last, turned⟩ := answers
  exact .of_answers turned

/-- What the turn at a frame can do: it answers, it leaves the frame, or it enters
a body once more. -/
theorem frame_turn_cases (program : Program) (bindings : Bindings) (frame : Frame)
    (rest : List Frame) :
    let place : Place := ⟨bindings, frame :: rest, none⟩
    (∃ answer last, place.turn program = .answers .nothing answer last) ∨
      place.turn program = .goesOn .nothing ⟨bindings, rest, none⟩ ∨
      ∃ body owner, place.turn program = .goesOn ⟨0, 1⟩ (place.enter program body owner) := by
  intro place
  cases frame with
  | sequence statements next owner =>
      cases upcoming : statements[next]? with
      | some statement =>
          left
          simp only [place, Place.turn, Place.frameTurn, upcoming]
          exact ⟨_, _, rfl⟩
      | none =>
          by_cases emptyBody : statements = [] ∧ owner.isSome
          · obtain ⟨rfl, owned⟩ := emptyBody
            obtain ⟨owner, rfl⟩ := Option.isSome_iff_exists.mp owned
            exact Or.inl ⟨_, _, rfl⟩
          · right
            left
            simp only [place, Place.turn, Place.frameTurn, upcoming]
            split
            · exact absurd ⟨rfl, rfl⟩ emptyBody
            · rfl
  | loop statement condition body =>
      right
      by_cases holds : isTruthy (program.evaluate bindings condition) = true
      · right
        refine ⟨body, statement, ?_⟩
        simp only [place, Place.turn, Place.frameTurn, holds, if_true]
      · left
        simp only [place, Place.turn, Place.frameTurn, holds, if_false, Bool.false_eq_true]

/-- What the turn of a pending statement can do: it answers, it leaves the rest to
the frames, of which there is at most one more than before, or it enters a body. -/
theorem effect_turn_cases (program : Program) (bindings : Bindings) (stack : List Frame)
    (statement : StatementId) :
    let place : Place := ⟨bindings, stack, some statement⟩
    (∃ answer last, place.turn program = .answers ⟨1, 0⟩ answer last) ∨
      (∃ newBindings newStack, newStack.length ≤ stack.length + 1 ∧
        place.turn program = .goesOn ⟨1, 0⟩ ⟨newBindings, newStack, none⟩) ∨
      ∃ body, place.turn program =
        .goesOn ⟨1, 1⟩ ((⟨bindings, stack, none⟩ : Place).enter program body statement) := by
  intro place
  cases node : program.statement? statement with
  | none =>
      refine Or.inr (Or.inl ⟨bindings, stack, Nat.le_succ _, ?_⟩)
      simp only [place, Place.turn, Place.effectTurn, node]
  | some found =>
      cases found with
      | assign name value =>
          refine Or.inr (Or.inl ⟨bindings.set name (program.evaluate bindings value), stack,
            Nat.le_succ _, ?_⟩)
          simp only [place, Place.turn, Place.effectTurn, node]
      | branch condition thenBody elseBody =>
          refine Or.inr (Or.inr
            ⟨if isTruthy (program.evaluate bindings condition) then thenBody else elseBody, ?_⟩)
          simp only [place, Place.turn, Place.effectTurn, node]
      | loop condition body =>
          refine Or.inr (Or.inl ⟨bindings, .loop statement condition body :: stack,
            Nat.le_refl _, ?_⟩)
          simp only [place, Place.turn, Place.effectTurn, node]
      | sleep duration =>
          left
          simp only [place, Place.turn, Place.effectTurn, node]
          exact ⟨_, _, rfl⟩

/-- Without a pending statement the loop ends within one turn per frame and one
more.  No statement takes effect, and at most one body is entered. -/
theorem endsWithin_of_settled (program : Program) (bindings : Bindings) (stack : List Frame) :
    EndsWithin program ⟨bindings, stack, none⟩ (stack.length + 1) 0 1 := by
  induction stack with
  | nil =>
      have ended : (⟨bindings, [], none⟩ : Place).turn program =
          .answers .nothing none ⟨bindings, [], none⟩ := rfl
      exact (EndsWithin.of_answers ended).mono (Nat.le_refl _) (Nat.le_refl _) (Nat.zero_le _)
  | cons frame rest ih =>
      obtain ⟨answer, last, answered⟩ | left | ⟨body, owner, entered⟩ :=
        frame_turn_cases program bindings frame rest
      · exact (EndsWithin.of_answers answered).mono (Nat.le_add_left _ _) (Nat.le_refl _)
          (Nat.zero_le _)
      · exact EndsWithin.of_goesOn left ih
      · refine (EndsWithin.of_goesOn entered
          (endsWithin_enter program _ body owner rfl)).mono ?_ (Nat.le_refl 0) (Nat.le_refl 1)
        simp only [List.length_cons]
        omega

/-- From every place the loop ends.  At most one statement takes effect, namely
the pending one, and at most one body is entered. -/
theorem endsWithin (program : Program) (place : Place) :
    EndsWithin program place (place.stack.length + 3) 1 1 := by
  obtain ⟨bindings, stack, pending⟩ := place
  cases pending with
  | none =>
      refine (endsWithin_of_settled program bindings stack).mono ?_ (Nat.zero_le 1) (Nat.le_refl 1)
      simp only
      omega
  | some statement =>
      obtain ⟨answer, last, answered⟩ | ⟨newBindings, newStack, oneMore, left⟩ | ⟨body, entered⟩ :=
        effect_turn_cases program bindings stack statement
      · exact (EndsWithin.of_answers answered).mono (Nat.le_add_left 1 (stack.length + 2))
          (Nat.le_refl 1) (Nat.zero_le 1)
      · refine (EndsWithin.of_goesOn left
          (endsWithin_of_settled program newBindings newStack)).mono ?_ (Nat.le_refl 1)
          (Nat.le_refl 1)
        simp only
        omega
      · exact (EndsWithin.of_goesOn entered
          (endsWithin_enter program _ body statement rfl)).mono
          (Nat.le_add_left 2 (stack.length + 1)) (Nat.le_refl 1) (Nat.le_refl 1)

/-! ### Steps of a whole run -/

theorem phase_step_ne_ready (run : Run) (program : Program) :
    (run.step program).2.phase ≠ .ready := by
  have proceeded (bindings : Bindings) (stack : List Frame) :
      (run.proceed program bindings stack).2.phase ≠ .ready := by
    unfold proceed
    split <;> simp [emit]
  unfold step
  split
  · rename_i completed
    simp [completed]
  · exact proceeded _ _
  · split
    · exact proceeded _ _
    · dsimp only
      split
      · simp [emit]
      · exact proceeded _ _

/-- A run that has made a step is never ready again. -/
theorem after_eq_start_of_ready {program : Program} {traced : Bool} {count : Nat}
    (ready : ((start traced).after program count).phase = .ready) :
    (start traced).after program count = start traced := by
  cases count with
  | zero => rfl
  | succ count => exact absurd ready (phase_step_ne_ready _ program)

/-- The first step is the step of the run that has entered the entry list. -/
theorem step_start (program : Program) (traced : Bool) :
    (start traced).step program =
      { (start traced).moveTo ((start traced).loopStart program) with
        phase := .running }.step program := by
  simp only [step, start, loopStart, moveTo, place]
  rfl

/-- As long as a run is not completed, the loop of its next step ends with the
answer of that step. -/
theorem step_of_loopStart {program : Program} {traced : Bool} {count : Nat} {last : Place}
    {turns : Nat} {work : Work} {answer : Option Snapshot}
    (going : ((start traced).after program count).phase ≠ .completed)
    (loop : Loop program (((start traced).after program count).loopStart program) turns work
      answer last) :
    ((start traced).after program count).step program =
      (answer, ((start traced).after program count).conclude answer last) := by
  cases phase : ((start traced).after program count).phase with
  | completed => exact absurd phase going
  | ready =>
      rw [after_eq_start_of_ready phase] at loop ⊢
      rw [step_start, step_of_loop rfl loop]
      cases answer <;> rfl
  | running =>
      simp only [loopStart, phase] at loop
      exact step_of_loop phase loop

/-- Every step of every run returns.  A completed run answers at once; in any
other the loop of the step ends, within three turns more than there are frames,
with the answer and the run of `Run.step`, and in these turns at most one
statement takes effect and at most one body is entered. -/
theorem step_loop_ends (program : Program) (traced : Bool) (count : Nat) :
    let run := (start traced).after program count
    (run.phase = .completed ∧ run.step program = (none, run)) ∨
      (run.phase ≠ .completed ∧
        ∃ turns work answer last,
          Loop program (run.loopStart program) turns work answer last ∧
          run.step program = (answer, run.conclude answer last) ∧
          turns ≤ (run.loopStart program).stack.length + 3 ∧
          work.effects ≤ 1 ∧ work.entries ≤ 1) := by
  intro run
  by_cases completed : run.phase = .completed
  · exact Or.inl ⟨completed, by simp only [step, completed]⟩
  · obtain ⟨turns, work, answer, last, loop, few, effects, entries⟩ :=
      endsWithin program (run.loopStart program)
    exact Or.inr ⟨completed, turns, work, answer, last, loop, step_of_loopStart completed loop,
      few, effects, entries⟩

end Run

end BlockStage

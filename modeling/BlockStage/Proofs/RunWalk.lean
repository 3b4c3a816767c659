import BlockStage.Proofs.RunLoop

/-!
# Runs and the recursive walk

A run keeps its way through the statement lists on a stack of frames.  What it
shows can be said without a stack: walk a list statement by statement, show each
statement with the variables of that moment, and then let it take effect, where
a branch and a loop walk their bodies in turn.  This file defines that walk by
recursion on the program and proves that the steps of a run answer exactly what
the walk shows.

Statement graphs may contain themselves and loops may never end, so the walk
takes a limit, for the nesting of bodies and for the rounds of each loop, and is
cut off there.  A walk that is cut off has shown more snapshots than its limit,
so larger limits determine as many answers of a run as wanted, and a walk comes
to its end under some limit exactly when the run does.
-/

namespace BlockStage

/-- What a walk shows, and the variables at its end unless it was cut off. -/
structure Walked where
  shown : List Snapshot
  final : Option Bindings

namespace Walked

def done (bindings : Bindings) : Walked := ⟨[], some bindings⟩

def cutOff : Walked := ⟨[], none⟩

def showing (snapshot : Snapshot) (walked : Walked) : Walked :=
  ⟨snapshot :: walked.shown, walked.final⟩

/-- A walk that goes on with another one where it ends. -/
def andThen (walked : Walked) (next : Bindings → Walked) : Walked :=
  match walked.final with
  | none => walked
  | some bindings => ⟨walked.shown ++ (next bindings).shown, (next bindings).final⟩

end Walked

namespace Program

/-- Walks the statements of a list in order.  Each is shown before it takes
effect. -/
def walkList (visit : StatementId → Bindings → Walked) : List StatementId → Bindings → Walked
  | [], bindings => .done bindings
  | statement :: rest, bindings =>
      .showing (.capture statement bindings none)
        ((visit statement bindings).andThen (walkList visit rest))

/-- Walks the body of a statement.  An empty body shows its owner instead. -/
def walkBody (visit : StatementId → Bindings → Walked) (owner : StatementId)
    (body : List StatementId) (bindings : Bindings) : Walked :=
  match body with
  | [] => .showing (.capture owner bindings none) (.done bindings)
  | first :: rest => walkList visit (first :: rest) bindings

/-- Walks the body of a loop for as long as its condition is true, but not for
more than a number of rounds. -/
def walkRounds (program : Program) (visit : StatementId → Bindings → Walked)
    (owner : StatementId) (condition : ExpressionId) (body : ListId) : Nat → Bindings → Walked
  | 0, _ => .cutOff
  | rounds + 1, bindings =>
      if isTruthy (program.evaluate bindings condition) then
        (walkBody visit owner (program.listOrEmpty body) bindings).andThen
          (walkRounds program visit owner condition body rounds)
      else .done bindings

/-- Lets a statement that was shown take effect. -/
def visit (program : Program) : Nat → StatementId → Bindings → Walked
  | 0, _, _ => .cutOff
  | limit + 1, statement, bindings =>
      match program.statement? statement with
      | none => .done bindings
      | some (.assign name value) => .done (bindings.set name (program.evaluate bindings value))
      | some (.branch condition thenBody elseBody) =>
          let body :=
            if isTruthy (program.evaluate bindings condition) then thenBody else elseBody
          walkBody (program.visit limit) statement (program.listOrEmpty body) bindings
      | some (.loop condition body) =>
          program.walkRounds (program.visit limit) statement condition body (limit + 1) bindings
      | some (.sleep duration) =>
          .showing (.capture statement bindings (some (program.evaluate bindings duration)))
            (.done bindings)

/-- Walks the entry list with the variables a run starts from. -/
def walk (program : Program) (limit : Nat) : Walked :=
  walkList (program.visit limit) program.entry .seeded

/-- The walk comes to an end, having shown the given snapshots. -/
def WalkEnds (program : Program) (shown : List Snapshot) (final : Bindings) : Prop :=
  ∃ limit, program.walk limit = ⟨shown, some final⟩

end Program

/-! ### A walk that is cut off has shown more than its limit -/

namespace Walked

/-- Where a composed walk is cut off, one of its parts was. -/
theorem final_andThen_eq_none {walked : Walked} {next : Bindings → Walked}
    (cut : (walked.andThen next).final = none) :
    walked.final = none ∨ ∃ bindings, walked.final = some bindings ∧ (next bindings).final = none := by
  cases ended : walked.final with
  | none => exact Or.inl rfl
  | some bindings =>
      simp only [andThen, ended] at cut
      exact Or.inr ⟨bindings, rfl, cut⟩

theorem length_shown_le_andThen (walked : Walked) (next : Bindings → Walked) :
    walked.shown.length ≤ (walked.andThen next).shown.length := by
  unfold andThen
  split
  · exact Nat.le_refl _
  · simp

theorem length_shown_andThen {walked : Walked} {next : Bindings → Walked} {bindings : Bindings}
    (ended : walked.final = some bindings) :
    (walked.andThen next).shown.length =
      walked.shown.length + (next bindings).shown.length := by
  simp only [andThen, ended, List.length_append]

end Walked

namespace Program

/-- Every visit that is cut off has shown at least `limit` snapshots. -/
def CutsOffLate (visit : StatementId → Bindings → Walked) (limit : Nat) : Prop :=
  ∀ statement bindings, (visit statement bindings).final = none →
    limit ≤ (visit statement bindings).shown.length

variable {visit : StatementId → Bindings → Walked} {limit : Nat}

theorem length_walkList_of_cut (late : CutsOffLate visit limit) {statements : List StatementId}
    {bindings : Bindings} (cut : (walkList visit statements bindings).final = none) :
    limit + 1 ≤ (walkList visit statements bindings).shown.length := by
  induction statements generalizing bindings with
  | nil => cases cut
  | cons statement rest ih =>
      simp only [walkList, Walked.showing, List.length_cons] at cut ⊢
      rcases Walked.final_andThen_eq_none cut with cutHere | ⟨next, ended, cutLater⟩
      · have shown := late statement bindings cutHere
        have more := Walked.length_shown_le_andThen (visit statement bindings) (walkList visit rest)
        omega
      · have shown := ih cutLater
        rw [Walked.length_shown_andThen ended]
        omega

theorem length_walkBody_of_cut (late : CutsOffLate visit limit) {owner : StatementId}
    {body : List StatementId} {bindings : Bindings}
    (cut : (walkBody visit owner body bindings).final = none) :
    limit + 1 ≤ (walkBody visit owner body bindings).shown.length := by
  cases body with
  | nil => cases cut
  | cons first rest => exact length_walkList_of_cut late cut

/-- A body always shows something, were it only its owner. -/
theorem length_walkBody_pos (visit : StatementId → Bindings → Walked) (owner : StatementId)
    (body : List StatementId) (bindings : Bindings) :
    0 < (walkBody visit owner body bindings).shown.length := by
  cases body <;> simp [walkBody, walkList, Walked.showing]

theorem length_walkRounds_of_cut (late : CutsOffLate visit limit) {program : Program}
    {owner : StatementId} {condition : ExpressionId} {body : ListId} {rounds : Nat}
    {bindings : Bindings} (few : rounds ≤ limit + 1)
    (cut : (program.walkRounds visit owner condition body rounds bindings).final = none) :
    rounds ≤ (program.walkRounds visit owner condition body rounds bindings).shown.length := by
  induction rounds generalizing bindings with
  | zero => exact Nat.zero_le _
  | succ rounds ih =>
      simp only [walkRounds] at cut ⊢
      split at cut
      · rename_i holds
        rw [if_pos holds]
        rcases Walked.final_andThen_eq_none cut with cutHere | ⟨next, ended, cutLater⟩
        · have shown := length_walkBody_of_cut late cutHere
          have more := Walked.length_shown_le_andThen
            (walkBody visit owner (program.listOrEmpty body) bindings)
            (program.walkRounds visit owner condition body rounds)
          omega
        · have shown := ih (by omega) cutLater
          have visible :=
            length_walkBody_pos visit owner (program.listOrEmpty body) bindings
          rw [Walked.length_shown_andThen ended]
          omega
      · cases cut

theorem cutsOffLate_visit (program : Program) (limit : Nat) :
    CutsOffLate (program.visit limit) limit := by
  induction limit with
  | zero => exact fun _ _ _ => Nat.zero_le _
  | succ limit ih =>
      intro statement bindings cut
      simp only [visit] at cut ⊢
      split at cut
      · cases cut
      · cases cut
      · exact length_walkBody_of_cut ih cut
      · exact length_walkRounds_of_cut ih (Nat.le_refl _) cut
      · cases cut

/-- A walk that is cut off has shown more snapshots than its limit. -/
theorem limit_lt_length_walk {program : Program} {limit : Nat}
    (cut : (program.walk limit).final = none) : limit < (program.walk limit).shown.length :=
  length_walkList_of_cut (cutsOffLate_visit program limit) cut

end Program

/-! ### The turns of a run follow the walk -/

namespace Run

/-- From the first place a stretch of turns leads to the last one, and the
answers on the way are the given snapshots. -/
inductive Shows (program : Program) : Place → List Snapshot → Place → Prop where
  | refl (place : Place) : Shows program place [] place
  | silent {place middle last : Place} {work : Work} {shown : List Snapshot} :
      place.turn program = .goesOn work middle →
      Shows program middle shown last →
      Shows program place shown last
  | visible {place middle last : Place} {work : Work} {snapshot : Snapshot}
      {shown : List Snapshot} :
      place.turn program = .answers work (some snapshot) middle →
      Shows program middle shown last →
      Shows program place (snapshot :: shown) last

theorem Shows.trans {program : Program} {first middle last : Place}
    {shown more : List Snapshot} (before : Shows program first shown middle)
    (behind : Shows program middle more last) : Shows program first (shown ++ more) last := by
  induction before with
  | refl => exact behind
  | silent turned _ ih => exact .silent turned (ih behind)
  | visible turned _ ih => exact .visible turned (ih behind)

/-- The turns from a place show what the walk shows.  When the walk ends, the
turns arrive in front of the given stack with the variables of the walk's end;
when it is cut off they may stand anywhere. -/
def Follows (program : Program) (place : Place) (walked : Walked) (stack : List Frame) : Prop :=
  match walked.final with
  | some bindings => Shows program place walked.shown ⟨bindings, stack, none⟩
  | none => ∃ last, Shows program place walked.shown last

namespace Follows

variable {program : Program} {place middle : Place} {walked : Walked} {work : Work}
variable {stack inner : List Frame}

theorem done (program : Program) (bindings : Bindings) (stack : List Frame) :
    Follows program ⟨bindings, stack, none⟩ (.done bindings) stack :=
  Shows.refl _

theorem cutOff (program : Program) (place : Place) (stack : List Frame) :
    Follows program place .cutOff stack :=
  ⟨place, Shows.refl place⟩

theorem silent (turned : place.turn program = .goesOn work middle)
    (follows : Follows program middle walked stack) : Follows program place walked stack := by
  unfold Follows at follows ⊢
  split at follows
  · exact .silent turned follows
  · obtain ⟨last, shows⟩ := follows
    exact ⟨last, .silent turned shows⟩

theorem visible {snapshot : Snapshot}
    (turned : place.turn program = .answers work (some snapshot) middle)
    (follows : Follows program middle walked stack) :
    Follows program place (walked.showing snapshot) stack := by
  cases ended : walked.final with
  | some bindings =>
      simp only [Follows, Walked.showing, ended] at follows ⊢
      exact .visible turned follows
  | none =>
      simp only [Follows, Walked.showing, ended] at follows ⊢
      obtain ⟨last, shows⟩ := follows
      exact ⟨last, .visible turned shows⟩

theorem andThen {next : Bindings → Walked} (first : Follows program place walked inner)
    (second : ∀ bindings, Follows program ⟨bindings, inner, none⟩ (next bindings) stack) :
    Follows program place (walked.andThen next) stack := by
  cases ended : walked.final with
  | none =>
      simp only [Follows, ended] at first
      simpa only [Follows, Walked.andThen, ended] using first
  | some bindings =>
      simp only [Follows, ended] at first
      have later := second bindings
      simp only [Follows, Walked.andThen, ended] at later ⊢
      split at later
      · exact first.trans later
      · obtain ⟨last, shows⟩ := later
        exact ⟨last, first.trans shows⟩

end Follows

/-- Wherever a visit is made, the turns follow it. -/
def FollowsVisits (program : Program) (visit : StatementId → Bindings → Walked) : Prop :=
  ∀ statement bindings stack,
    Follows program ⟨bindings, stack, some statement⟩ (visit statement bindings) stack

variable {program : Program} {visit : StatementId → Bindings → Walked}

/-- A list frame behind some of its statements follows the walk of the rest. -/
theorem follows_walkList (visits : FollowsVisits program visit) (taken rest : List StatementId)
    (bindings : Bindings) (owner : Option StatementId) (stack : List Frame)
    (notEmptyBody : taken ++ rest ≠ [] ∨ owner = none) :
    Follows program ⟨bindings, .sequence (taken ++ rest) taken.length owner :: stack, none⟩
      (Program.walkList visit rest bindings) stack := by
  induction rest generalizing taken bindings with
  | nil =>
      have left : (⟨bindings, .sequence (taken ++ []) taken.length owner :: stack, none⟩ :
          Place).turn program = .goesOn .nothing ⟨bindings, stack, none⟩ := by
        have exhausted : (taken ++ [])[taken.length]? = none := by simp
        simp only [Place.turn, Place.frameTurn, exhausted]
        split
        · rename_i isEmpty
          rcases notEmptyBody with nonempty | unowned
          · exact absurd isEmpty nonempty
          · cases unowned
        · rfl
      exact .silent left (.done program bindings stack)
  | cons statement rest ih =>
      have upcoming : (taken ++ statement :: rest)[taken.length]? = some statement := by simp
      have shown : (⟨bindings, .sequence (taken ++ statement :: rest) taken.length owner :: stack,
          none⟩ : Place).turn program =
            .answers .nothing (some (.capture statement bindings none))
              ⟨bindings, .sequence (taken ++ statement :: rest) (taken.length + 1) owner :: stack,
                some statement⟩ := by
        simp only [Place.turn, Place.frameTurn, upcoming]
      refine .visible shown ((visits statement bindings _).andThen ?_)
      intro next
      have later := ih (taken ++ [statement]) next (Or.inl (by simp))
      simpa using later

theorem follows_walkBody (visits : FollowsVisits program visit) (owner : StatementId)
    (body : List StatementId) (bindings : Bindings) (stack : List Frame) :
    Follows program ⟨bindings, .sequence body 0 (some owner) :: stack, none⟩
      (Program.walkBody visit owner body bindings) stack := by
  cases body with
  | nil =>
      have shown : (⟨bindings, .sequence [] 0 (some owner) :: stack, none⟩ : Place).turn program =
          .answers .nothing (some (.capture owner bindings none)) ⟨bindings, stack, none⟩ := rfl
      exact .visible shown (.done program bindings stack)
  | cons first rest =>
      exact follows_walkList visits [] (first :: rest) bindings (some owner) stack (Or.inl (by simp))

/-- A loop frame follows the rounds of the loop: it stays below the body of each
round and is met again behind it. -/
theorem follows_walkRounds (visits : FollowsVisits program visit) (owner : StatementId)
    (condition : ExpressionId) (body : ListId) (rounds : Nat) (bindings : Bindings)
    (stack : List Frame) :
    Follows program ⟨bindings, .loop owner condition body :: stack, none⟩
      (program.walkRounds visit owner condition body rounds bindings) stack := by
  induction rounds generalizing bindings with
  | zero => exact .cutOff program _ stack
  | succ rounds ih =>
      simp only [Program.walkRounds]
      split
      · rename_i holds
        have entered : (⟨bindings, .loop owner condition body :: stack, none⟩ : Place).turn program =
            .goesOn ⟨0, 1⟩
              ⟨bindings, .sequence (program.listOrEmpty body) 0 (some owner) ::
                .loop owner condition body :: stack, none⟩ := by
          simp only [Place.turn, Place.frameTurn, holds, if_true, Place.enter]
        exact .silent entered ((follows_walkBody visits owner _ bindings _).andThen ih)
      · rename_i fails
        have left : (⟨bindings, .loop owner condition body :: stack, none⟩ : Place).turn program =
            .goesOn .nothing ⟨bindings, stack, none⟩ := by
          simp only [Place.turn, Place.frameTurn, fails, if_false, Bool.false_eq_true]
        exact .silent left (.done program bindings stack)

theorem followsVisits_visit (program : Program) (limit : Nat) :
    FollowsVisits program (program.visit limit) := by
  induction limit with
  | zero => exact fun statement bindings stack => .cutOff program _ stack
  | succ limit ih =>
      intro statement bindings stack
      have turned : (⟨bindings, stack, some statement⟩ : Place).turn program =
          (⟨bindings, stack, none⟩ : Place).effectTurn program statement := rfl
      simp only [Program.visit]
      split
      · rename_i node
        simp only [Place.effectTurn, node] at turned
        exact .silent turned (.done program _ stack)
      · rename_i node
        simp only [Place.effectTurn, node] at turned
        exact .silent turned (.done program _ stack)
      · rename_i node
        simp only [Place.effectTurn, node, Place.enter] at turned
        exact .silent turned (follows_walkBody ih statement _ bindings stack)
      · rename_i node
        simp only [Place.effectTurn, node] at turned
        exact .silent turned (follows_walkRounds ih statement _ _ _ bindings stack)
      · rename_i node
        simp only [Place.effectTurn, node] at turned
        exact .visible turned (.done program bindings stack)

/-! ### The answers of the steps -/

theorem after_succ (run : Run) (program : Program) (count : Nat) :
    run.after program (count + 1) = ((run.step program).2).after program count := by
  induction count with
  | zero => rfl
  | succ count ih =>
      calc
        run.after program (count + 2) = ((run.after program (count + 1)).step program).2 := rfl
        _ = ((((run.step program).2).after program count).step program).2 := by rw [ih]

theorem result_succ (run : Run) (program : Program) (count : Nat) :
    run.result program (count + 1) = ((run.step program).2).result program count := by
  rw [result, after_succ]
  rfl

theorem step_of_shows_cons {run : Run} {snapshot : Snapshot} {shown : List Snapshot}
    {last : Place} (running : run.phase = .running)
    (shows : Shows program run.place (snapshot :: shown) last) :
    ∃ middle, run.step program = (some snapshot, run.conclude (some snapshot) middle) ∧
      Shows program middle shown last := by
  generalize start : run.place = first, whole : snapshot :: shown = all at shows
  induction shows generalizing run with
  | refl => cases whole
  | @silent _ middle _ _ _ turned _ ih =>
      obtain ⟨later, stepped, rest⟩ := @ih (run.moveTo middle) running rfl whole
      exact ⟨later, (step_of_goesOn running (start ▸ turned)).trans stepped, rest⟩
  | visible turned rest _ =>
      cases whole
      exact ⟨_, step_of_answers running (start ▸ turned), rest⟩

theorem step_of_shows_nil {run : Run} {bindings : Bindings} (running : run.phase = .running)
    (shows : Shows program run.place [] ⟨bindings, [], none⟩) :
    run.step program = (none, run.conclude none ⟨bindings, [], none⟩) := by
  generalize start : run.place = first, whole : [] = all, finish : Place.mk _ _ _ = last at shows
  induction shows generalizing run with
  | refl =>
      have empty : run.place.turn program =
          .answers .nothing none ⟨bindings, [], none⟩ := by
        rw [start, ← finish]
        rfl
      rw [← finish]
      exact step_of_answers running empty
  | @silent _ middle _ _ _ turned _ ih =>
      have stepped := @ih (run.moveTo middle) running rfl whole finish
      exact (step_of_goesOn running (start ▸ turned)).trans stepped
  | visible => cases whole

/-- The steps of a run answer the snapshots that its turns show. -/
theorem result_of_shows {run : Run} {shown : List Snapshot} {last : Place}
    (running : run.phase = .running) (shows : Shows program run.place shown last)
    {index : Nat} (inside : index < shown.length) :
    run.result program index = shown[index]? := by
  induction shown generalizing run index with
  | nil => cases inside
  | cons snapshot shown ih =>
      obtain ⟨middle, stepped, rest⟩ := step_of_shows_cons running shows
      cases index with
      | zero => rw [result, after, stepped]; rfl
      | succ index =>
          rw [result_succ, stepped, List.getElem?_cons_succ]
          exact @ih (run.conclude (some snapshot) middle) rfl rest index (Nat.lt_of_succ_lt_succ inside)

theorem result_of_completed {run : Run} (program : Program) (completed : run.phase = .completed)
    (index : Nat) : run.result program index = none := by
  have still : run.step program = (none, run) := by simp only [step, completed]
  induction index with
  | zero => rw [result, after, still]
  | succ index ih => rw [result_succ, still, ih]

/-- When the turns of a run empty the stack, its steps answer the snapshots they
show and nothing from then on, and the variables stay as they are there. -/
theorem results_of_shows_end {run : Run} {shown : List Snapshot} {bindings : Bindings}
    (running : run.phase = .running)
    (shows : Shows program run.place shown ⟨bindings, [], none⟩) :
    (∀ index, run.result program index = shown[index]?) ∧
      (run.after program (shown.length + 1)).bindings = bindings := by
  induction shown generalizing run with
  | nil =>
      have stepped := step_of_shows_nil running shows
      constructor
      · intro index
        cases index with
        | zero => rw [result, after, stepped]; rfl
        | succ index =>
            rw [result_succ, stepped]
            exact result_of_completed program rfl index
      · rw [after_succ, stepped]
        rfl
  | cons snapshot shown ih =>
      obtain ⟨middle, stepped, rest⟩ := step_of_shows_cons running shows
      obtain ⟨answers, final⟩ := @ih (run.conclude (some snapshot) middle) rfl rest
      constructor
      · intro index
        cases index with
        | zero => rw [result, after, stepped]; rfl
        | succ index => rw [result_succ, stepped, List.getElem?_cons_succ, answers]
      · rw [List.length_cons, after_succ, stepped, final]

/-- The run that has entered the entry list. -/
def entered (program : Program) (traced : Bool) : Run :=
  { (start traced).moveTo ((start traced).loopStart program) with phase := .running }

theorem result_start (program : Program) (traced : Bool) (index : Nat) :
    (start traced).result program index = (entered program traced).result program index := by
  cases index with
  | zero => rw [result, result, after, after, step_start]; rfl
  | succ index => rw [result_succ, result_succ, step_start]; rfl

theorem after_start_succ (program : Program) (traced : Bool) (count : Nat) :
    (start traced).after program (count + 1) =
      (entered program traced).after program (count + 1) := by
  rw [after_succ, after_succ, step_start]
  rfl

theorem follows_walk (program : Program) (traced : Bool) (limit : Nat) :
    Follows program (entered program traced).place (program.walk limit) [] :=
  follows_walkList (followsVisits_visit program limit) [] program.entry .seeded none []
    (Or.inr rfl)

/-- What a walk shows, also one that is cut off, is what the steps answer first. -/
theorem result_eq_walk (program : Program) (traced : Bool) (limit : Nat) {index : Nat}
    (inside : index < (program.walk limit).shown.length) :
    (start traced).result program index = (program.walk limit).shown[index]? := by
  have follows := follows_walk program traced limit
  rw [result_start]
  unfold Follows at follows
  split at follows
  · exact result_of_shows rfl follows inside
  · obtain ⟨last, shows⟩ := follows
    exact result_of_shows rfl shows inside

/-- A walk that ends says all there is to the run. -/
theorem results_of_walk_ends {program : Program} (traced : Bool) {limit : Nat}
    {shown : List Snapshot} {final : Bindings} (walked : program.walk limit = ⟨shown, some final⟩) :
    (∀ index, (start traced).result program index = shown[index]?) ∧
      ((start traced).after program (shown.length + 1)).bindings = final := by
  have follows := follows_walk program traced limit
  rw [walked] at follows
  obtain ⟨answers, ending⟩ := results_of_shows_end rfl follows
  constructor
  · intro index
    rw [result_start, answers]
  · rw [after_start_succ, ending]

/-- The steps of a fresh run answer exactly what the walk shows.  First, the walk
ends with some snapshots and variables exactly when the steps answer these
snapshots and nothing afterwards, and the run ends with these variables.
Second, what any walk shows, cut off or not, is what the steps answer first.
Third, a walk that is cut off has shown more than its limit, so a walk without
an end agrees with the run on every finite number of steps. -/
theorem results_eq_walk (program : Program) (traced : Bool) :
    (∀ shown final, program.WalkEnds shown final ↔
      (∀ index, (start traced).result program index = shown[index]?) ∧
        ((start traced).after program (shown.length + 1)).bindings = final) ∧
    (∀ limit index, index < (program.walk limit).shown.length →
      (start traced).result program index = (program.walk limit).shown[index]?) ∧
    (∀ limit, (program.walk limit).final = none →
      limit < (program.walk limit).shown.length) := by
  refine ⟨?_, ?_, ?_⟩
  · intro shown final
    constructor
    · rintro ⟨limit, walked⟩
      exact results_of_walk_ends traced walked
    · rintro ⟨answers, ending⟩
      -- A walk with this limit cannot be cut off: it would show more than the run does.
      let limit := shown.length
      cases ended : (program.walk limit).final with
      | none =>
          have long := Program.limit_lt_length_walk ended
          have agrees := result_eq_walk program traced limit long
          rw [answers, List.getElem?_eq_none (Nat.le_refl _), List.getElem?_eq_getElem long] at agrees
          cases agrees
      | some bindings =>
          have walked : program.walk limit = ⟨(program.walk limit).shown, some bindings⟩ := by
            rw [← ended]
          obtain ⟨walkAnswers, walkEnding⟩ := results_of_walk_ends traced walked
          have same : (program.walk limit).shown = shown :=
            List.ext_getElem? fun index => by rw [← walkAnswers, answers]
          rw [same, ending] at walkEnding
          exact ⟨limit, by rw [walked, same, walkEnding]⟩
  · exact fun limit index inside => result_eq_walk program traced limit inside
  · exact fun limit cut => Program.limit_lt_length_walk cut

end Run

end BlockStage

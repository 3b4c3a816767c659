import BlockStage.Proofs.FiniteNumbers
import BlockStage.Proofs.ProgramRoundTrip

/-!
# Programs that are read have finite constants

A reader can only give what its tokens hold, and the numbers of a text are finite.  For
each way of putting readers together this module says what is kept: the tokens that are
left are finite still, and the value is as good as the parts it was read from.  So a
program has finite constants however its text is laid out: with members in any order or
unknown, with nodes as arrays, with keys that come twice.
-/

namespace BlockStage

namespace Reader

variable {α β σ ρ : Type}

/-- All numbers among some tokens are finite. -/
def AllFinite (tokens : List Token) : Prop := ∀ token ∈ tokens, token.IsFinite

theorem AllFinite.tail {token : Token} {rest : List Token} (finite : AllFinite (token :: rest)) :
    AllFinite rest :=
  fun other isToken => finite other (List.mem_cons_of_mem token isToken)

/-- From finite tokens a reader gives good values only, and leaves finite tokens. -/
def Gives (reader : Reader α) (good : α → Prop) : Prop :=
  ∀ tokens result rest, reader tokens = .ok (result, rest) → AllFinite tokens →
    good result ∧ AllFinite rest

/-! ### Putting readers together -/

theorem gives_pure {good : α → Prop} {value : α} (isGood : good value) :
    Gives (pure value) good := by
  intro tokens result rest read finite
  cases read
  exact ⟨isGood, finite⟩

theorem gives_fail {good : α → Prop} (fault : Fault) : Gives (fail fault) good := by
  intro tokens result rest read
  cases read

theorem Gives.mono {reader : Reader α} {good better : α → Prop} (gives : Gives reader good)
    (isBetter : ∀ value, good value → better value) : Gives reader better := by
  intro tokens result rest read finite
  obtain ⟨isGood, restFinite⟩ := gives tokens result rest read finite
  exact ⟨isBetter result isGood, restFinite⟩

theorem Gives.bind {reader : Reader α} {next : α → Reader β} {good : α → Prop}
    {better : β → Prop} (gives : Gives reader good)
    (later : ∀ value, good value → Gives (next value) better) :
    Gives (reader >>= next) better := by
  intro tokens result rest read finite
  cases first : reader tokens with
  | error fault =>
      simp only [Bind.bind, StateT.bind, first, Except.bind] at read
      cases read
  | ok pair =>
      obtain ⟨value, middle⟩ := pair
      rw [bind_of_ok first] at read
      obtain ⟨isGood, middleFinite⟩ := gives tokens value middle first finite
      exact later value isGood middle result rest read middleFinite

theorem Gives.map {reader : Reader α} {function : α → β} {good : α → Prop} {better : β → Prop}
    (gives : Gives reader good) (isBetter : ∀ value, good value → better (function value)) :
    Gives (function <$> reader) better := by
  rw [map_eq_pure_bind]
  exact gives.bind fun value isGood => gives_pure (isBetter value isGood)

/-- What every turn of a loop keeps, its last turn may use. -/
theorem gives_loop {step : σ → Reader (σ ⊕ α)} (keeps : σ → Prop) {good : α → Prop} {state : σ}
    (turn : ∀ state, keeps state → Gives (step state) (Sum.elim keeps good))
    (start : keeps state) : Gives (loop step state) good := by
  have turns (fuel : List Token) : ∀ state, keeps state →
      Gives (repeatFor step fuel state) good := by
    induction fuel with
    | nil => exact fun state _ => gives_fail .malformed
    | cons token fuel ih =>
        intro state kept
        rw [repeatFor]
        refine (turn state kept).bind fun outcome reached => ?_
        cases outcome with
        | inl next => exact ih next reached
        | inr result => exact gives_pure reached
  intro tokens
  exact turns (.stray :: tokens) state start tokens

/-! ### Single tokens -/

/-- A reader that only ever takes tokens from the front. -/
def Shortens (reader : Reader α) : Prop :=
  ∀ tokens result rest, reader tokens = .ok (result, rest) → rest <:+ tokens

theorem Shortens.gives {reader : Reader α} (shortens : Shortens reader) :
    Gives reader fun _ => True :=
  fun tokens result rest read finite =>
    ⟨trivial, fun token isToken =>
      finite token ((shortens tokens result rest read).subset isToken)⟩

theorem shortens_text : Shortens text := by
  intro tokens result rest read
  unfold text at read
  split at read <;> cases read
  exact List.suffix_cons _ _

theorem shortens_count : Shortens count := by
  intro tokens result rest read
  unfold count at read
  split at read <;> cases read
  exact List.suffix_cons _ _

theorem shortens_colon : Shortens colon := by
  intro tokens result rest read
  unfold colon at read
  split at read <;> cases read
  exact List.suffix_cons _ _

theorem shortens_closeArray : Shortens closeArray := by
  intro tokens result rest read
  unfold closeArray at read
  split at read <;> cases read
  exact List.suffix_cons _ _

theorem shortens_closeObject : Shortens closeObject := by
  intro tokens result rest read
  unfold closeObject at read
  split at read <;> cases read
  exact List.suffix_cons _ _

theorem shortens_key : Shortens key := by
  intro tokens result rest read
  unfold key at read
  split at read <;> cases read
  exact List.suffix_cons _ _

theorem shortens_hasItem (first : Bool) : Shortens (hasItem first) := by
  intro tokens result rest read
  unfold hasItem at read
  split at read
  · cases read
  · cases read
    exact List.suffix_rfl
  · split at read
    · cases read
      exact List.suffix_rfl
    · split at read <;> cases read
      exact List.suffix_cons _ _
  · split at read <;> cases read
    exact List.suffix_rfl

theorem Shortens.map {reader : Reader α} (shortens : Shortens reader) (function : α → β) :
    Shortens (function <$> reader) := by
  intro tokens result rest read
  cases first : reader tokens with
  | error fault =>
      simp only [Functor.map, StateT.map, first, Bind.bind, Except.bind] at read
      cases read
  | ok pair =>
      obtain ⟨value, middle⟩ := pair
      rw [map_of_ok first] at read
      cases read
      exact shortens tokens value rest first

theorem shortens_nextKey (first : Bool) : Shortens (nextKey first) := by
  have shortens := shortens_key.map some
  intro tokens result rest read
  unfold nextKey at read
  split at read
  · cases read
  · cases read
    exact List.suffix_rfl
  · split at read
    · cases read
    · exact (shortens _ _ _ read).trans (List.suffix_cons _ _)
  · split at read
    · exact shortens _ _ _ read
    · cases read

/-! ### Values passed over -/

theorem shortens_skipStart (brackets : List Bracket) : Shortens (skipStart brackets) := by
  intro tokens result rest read
  unfold skipStart at read
  split at read <;> cases read
  all_goals exact List.suffix_cons _ _

theorem shortens_skipKey : Shortens skipKey := by
  intro tokens result rest read
  unfold skipKey at read
  split at read
  · cases read
  · exact (shortens_colon _ _ _ read).trans (List.suffix_cons _ _)
  · cases read
  · cases read

theorem shortens_skipToValue (brackets : List Bracket) : Shortens (skipToValue brackets) := by
  unfold skipToValue
  split
  · rw [← map_eq_pure_bind]
    exact shortens_skipKey.map _
  · exact shortens_skipStart brackets

theorem shortens_skipStep (state : List Bracket × Passing) : Shortens (skipStep state) := by
  intro tokens result rest read
  unfold skipStep at read
  split at read
  · exact shortens_skipStart _ _ _ _ read
  · dsimp only at read
    split at read
    · cases read
    · cases read
      exact List.suffix_cons _ _
    · cases read
      exact List.suffix_cons _ _
    · exact (shortens_skipToValue _ _ _ _ read).trans (List.suffix_cons _ _)
    · cases read
    · exact shortens_skipToValue _ _ _ _ read

theorem gives_skip : Gives skip fun _ => True := by
  refine gives_loop (fun _ => True) (fun state _ => ?_) trivial
  refine (shortens_skipStep state).gives.mono fun outcome _ => ?_
  cases outcome <;> trivial

/-! ### Arrays, objects and documents -/

/-- Items are read one by one, whichever of them may stand without a comma. -/
theorem gives_itemLoop (first : List α → Bool) {item : Reader α} {good : α → Prop}
    (each : Gives item good) :
    Gives (loop (fun collected : List α => do
      if ← hasItem (first collected) then
        let next ← item
        return .inl (next :: collected)
      else
        closeArray
        return .inr collected.reverse) []) fun values => ∀ value ∈ values, good value := by
  refine gives_loop (fun collected => ∀ value ∈ collected, good value) ?_ (by simp)
  intro collected kept
  refine (shortens_hasItem _).gives.bind fun more _ => ?_
  cases more with
  | true =>
      refine each.bind fun next isGood => gives_pure ?_
      exact List.forall_mem_cons.mpr ⟨isGood, kept⟩
  | false =>
      refine shortens_closeArray.gives.bind fun _ _ => gives_pure ?_
      simpa using kept

theorem gives_items {item : Reader α} {good : α → Prop} (each : Gives item good) :
    Gives (items item) fun values => ∀ value ∈ values, good value :=
  gives_itemLoop List.isEmpty each

theorem gives_members {value : String → Reader α} {good : α → Prop}
    (each : ∀ name, Gives (value name) good) :
    Gives (members value) fun entries => ∀ entry ∈ entries, good entry.2 := by
  rw [members_eq]
  refine gives_loop (fun collected => ∀ entry ∈ collected, good entry.2) ?_ (by simp)
  intro collected kept
  refine (shortens_nextKey _).gives.bind fun name? _ => ?_
  cases name? with
  | some name =>
      refine shortens_colon.gives.bind fun _ _ => (each name).bind fun next isGood => ?_
      exact gives_pure (List.forall_mem_cons.mpr ⟨isGood, kept⟩)
  | none =>
      refine shortens_closeObject.gives.bind fun _ _ => gives_pure ?_
      simpa using kept

theorem gives_array {item : Reader α} {good : α → Prop} (each : Gives item good) :
    Gives (array item) fun values => ∀ value ∈ values, good value := by
  intro tokens result rest read finite
  unfold array at read
  split at read
  · cases read
  · exact gives_items each _ _ _ read finite.tail
  · cases read

theorem gives_dictionary {value : Reader α} {good : α → Prop} (each : Gives value good) :
    Gives (dictionary value) fun entries => ∀ entry ∈ entries, good entry.2 := by
  intro tokens result rest read finite
  unfold dictionary at read
  split at read
  · cases read
  · exact gives_members (fun _ => each) _ _ _ read finite.tail
  · cases read

theorem gives_scalar : Gives scalar Json.IsFinite := by
  intro tokens result rest read finite
  unfold scalar at read
  split at read <;> cases read
  · exact ⟨trivial, finite.tail⟩
  · exact ⟨trivial, finite.tail⟩
  · exact ⟨finite _ List.mem_cons_self, finite.tail⟩
  · exact ⟨trivial, finite.tail⟩

theorem gives_value (room : Nat) : Gives (value room) Json.IsFinite := by
  induction room with
  | zero => exact gives_scalar
  | succ room ih =>
      intro tokens result rest read finite
      unfold value at read
      split at read
      · refine ((gives_items ih).map fun items each => ?_) _ _ _ read finite.tail
        exact Json.areFinite_of_forall each
      · refine ((gives_members fun _ => ih).map fun members each => ?_) _ _ _ read finite.tail
        exact Json.membersFinite_of_forall each
      · exact gives_scalar _ _ _ read finite

/-! ### Records -/

theorem gives_recordMembers {fields : List (Field σ)} {keeps : σ → Prop} {blank : σ}
    (each : ∀ field ∈ fields, ∀ state, keeps state → Gives (field.read state) keeps)
    (start : keeps blank) : Gives (recordMembers fields blank) keeps := by
  rw [recordMembers_eq]
  refine gives_loop (fun state => keeps state.2) ?_ start
  intro state kept
  refine (shortens_nextKey _).gives.bind fun name? _ => ?_
  cases name? with
  | none => exact gives_pure kept
  | some name =>
      dsimp only
      split
      · rename_i field found
        split
        · exact gives_fail .mismatched
        · refine shortens_colon.gives.bind fun _ _ => ?_
          refine (each field (List.mem_of_find?_eq_some found) state.2 kept).bind fun next good => ?_
          exact gives_pure good
      · exact shortens_colon.gives.bind fun _ _ => gives_skip.bind fun _ _ => gives_pure kept

theorem gives_recordItems {fields : List (Field σ)} {keeps : σ → Prop}
    (each : ∀ field ∈ fields, ∀ state, keeps state → Gives (field.read state) keeps) :
    ∀ first state, keeps state → Gives (recordItems fields first state) keeps := by
  induction fields with
  | nil => exact fun first state kept => gives_pure kept
  | cons field rest ih =>
      obtain ⟨here, later⟩ := List.forall_mem_cons.mp each
      intro first state kept
      rw [recordItems]
      refine (shortens_hasItem first).gives.bind fun more _ => ?_
      cases more with
      | true => exact (here state kept).bind fun next good => ih later false next good
      | false => exact gives_pure kept

theorem gives_record {fields : List (Field σ)} {keeps : σ → Prop} {blank : σ}
    {finish : σ → Option ρ} {good : ρ → Prop}
    (each : ∀ field ∈ fields, ∀ state, keeps state → Gives (field.read state) keeps)
    (start : keeps blank)
    (complete : ∀ state result, keeps state → finish state = some result → good result) :
    Gives (record fields blank finish) good := by
  have finished {close : Reader Unit} (closes : Shortens close) {state : σ} (kept : keeps state)
      {result : ρ} (filled : finish state = some result) :
      Gives (do close; return result) good :=
    closes.gives.bind fun _ _ => gives_pure (complete state result kept filled)
  intro tokens result rest read finite
  unfold record at read
  split at read
  · cases read
  · refine ((gives_recordMembers each start).bind fun state kept => ?_) _ _ _ read finite.tail
    split
    · rename_i filled
      exact finished shortens_closeObject kept filled
    · exact gives_fail .mismatched
  · refine ((gives_recordItems each true blank start).bind fun state kept => ?_) _ _ _ read
      finite.tail
    split
    · rename_i filled
      exact finished shortens_closeArray kept filled
    · exact gives_fail .mismatched
  · cases read

/-- What is read from a whole text is good. -/
theorem Gives.of_run {reader : Reader α} {good : α → Prop} (gives : Gives reader good)
    {source : String} {result : α} (read : run reader source = .ok result) : good result := by
  unfold run at read
  split at read
  · cases read
  · rename_i first
    cases read
    exact (gives _ _ _ first (Token.isFinite_of_mem_tokenize _)).1
  · cases read

end Reader

/-! ### Nodes -/

namespace Wire

open Reader (Gives gives_pure gives_fail)

theorem isFinite_of_only? {name : String} {members : List (String × Json)} {value : Json}
    (each : ∀ member ∈ members, member.2.IsFinite) (found : only? name members = some value) :
    value.IsFinite := by
  unfold only? at found
  split at found
  · rename_i other _ only
    cases found
    have isMember : (other, value) ∈ members.filter fun member => member.1 == name := by
      rw [only]
      exact List.mem_cons_self
    exact each _ (List.mem_filter.mp isMember).1
  · cases found

theorem isFinite_of_realMember? {name : String} {members : List (String × Json)} {value : Float}
    (each : ∀ member ∈ members, member.2.IsFinite)
    (found : realMember? name members = some value) : value.isFinite = true := by
  unfold realMember? at found
  split at found
  · rename_i numeral only
    cases found
    have finite : (Json.number numeral).IsFinite := isFinite_of_only? each only
    exact Numeral.IsFinite.isFinite_toFloat finite
  · cases found

namespace NodeShape

variable {kind node : Type} {shape : NodeShape kind node} {good : node → Prop}

theorem gives_readTag : Gives shape.readTag fun _ => True := by
  refine Reader.shortens_text.gives.bind fun word _ => ?_
  split
  · exact gives_pure trivial
  · exact gives_fail .mismatched

theorem gives_finish {built : Option node} (isGood : ∀ result, built = some result → good result) :
    Gives (finish built) good := by
  cases built with
  | some result => exact gives_pure (isGood result rfl)
  | none => exact gives_fail .mismatched

theorem gives_memberLoop (room : Nat) :
    Gives (Reader.loop (shape.memberStep room) ⟨true, none, []⟩) fun gathered =>
      ∀ member ∈ gathered.2, member.2.IsFinite := by
  refine Reader.gives_loop (fun state => ∀ member ∈ state.members, member.2.IsFinite) ?_ (by simp)
  intro state kept
  refine (Reader.shortens_nextKey _).gives.bind fun name? _ => ?_
  cases name? with
  | some name =>
      dsimp only
      split
      · split
        · exact gives_fail .mismatched
        · exact Reader.shortens_colon.gives.bind fun _ _ =>
            gives_readTag.bind fun tag _ => gives_pure kept
      · refine Reader.shortens_colon.gives.bind fun _ _ => ?_
        refine (Reader.gives_value room).bind fun value finite => gives_pure ?_
        exact List.forall_mem_cons.mpr ⟨finite, kept⟩
  | none =>
      dsimp only
      split
      · refine Reader.shortens_closeObject.gives.bind fun _ _ => gives_pure ?_
        simpa using kept
      · exact gives_fail .mismatched

/-- Contents that are given in their order are those that would be given by name. -/
theorem good_of_ofItems? {tag : kind} {items : List Json} {result : node}
    (build : ∀ tag members result, (∀ member ∈ members, member.2.IsFinite) →
      shape.build? tag members = some result → good result)
    (each : ∀ item ∈ items, item.IsFinite) (built : shape.ofItems? tag items = some result) :
    good result := by
  unfold ofItems? at built
  dsimp only at built
  split at built
  · refine build tag _ result (fun member isMember => ?_) built
    exact each member.2 (List.of_mem_zip isMember).2
  · cases built

/-- A node is as good as its kind makes it from finite contents. -/
theorem gives_read (build : ∀ tag members result, (∀ member ∈ members, member.2.IsFinite) →
      shape.build? tag members = some result → good result) (room : Nat) :
    Gives (shape.read room) good := by
  have members (room : Nat) : Gives (shape.readMembers room) good := by
    rw [readMembers_eq]
    refine (gives_memberLoop room).bind fun gathered each => ?_
    exact gives_finish fun result built => build gathered.1 gathered.2 result each built
  have items (room : Nat) : Gives (shape.readItems room) good := by
    refine (Reader.shortens_hasItem true).gives.bind fun more _ => ?_
    cases more with
    | false => exact gives_fail .mismatched
    | true =>
        refine gives_readTag.bind fun tag _ => ?_
        refine (Reader.gives_itemLoop (fun _ => false) (Reader.gives_value room)).bind
          fun items each => ?_
        exact gives_finish fun result built => good_of_ofItems? build each built
  intro tokens result rest read finite
  unfold NodeShape.read at read
  split at read
  · exact members _ _ _ _ read finite.tail
  · exact items _ _ _ _ read finite.tail
  all_goals cases read

end NodeShape

end Wire

theorem Expression.gives_read (room : Nat) :
    Reader.Gives (shape.read room) fun expression => expression.isNonFiniteConstant = false := by
  apply Wire.NodeShape.gives_read
  intro tag members expression each built
  cases tag with
  | constant =>
      obtain ⟨value, found, given⟩ := Option.bind_eq_some_iff.mp built
      cases given
      simp [isNonFiniteConstant, Wire.isFinite_of_realMember? each found]
  | read =>
      obtain ⟨name, -, given⟩ := Option.bind_eq_some_iff.mp built
      cases given
      rfl
  | negate =>
      obtain ⟨operand, -, given⟩ := Option.bind_eq_some_iff.mp built
      cases given
      rfl
  | binary operator =>
      obtain ⟨left, -, rest⟩ := Option.bind_eq_some_iff.mp built
      obtain ⟨right, -, given⟩ := Option.bind_eq_some_iff.mp rest
      cases given
      rfl

/-! ### Tables and programs -/

namespace Arena

variable {α : Type}

theorem mem_put {id : String} {value : α} {entries : List (String × α)} {entry : String × α}
    (isEntry : entry ∈ put id value entries) : entry = (id, value) ∨ entry ∈ entries := by
  induction entries with
  | nil => exact Or.inl (List.mem_singleton.mp isEntry)
  | cons first rest ih =>
      obtain ⟨key, old⟩ := first
      rw [put] at isEntry
      split at isEntry
      · rename_i same
        rcases List.mem_cons.mp isEntry with rfl | later
        · exact Or.inl (by rw [same])
        · exact Or.inr (List.mem_cons_of_mem _ later)
      · rcases List.mem_cons.mp isEntry with rfl | later
        · exact Or.inr List.mem_cons_self
        · exact (ih later).imp_right (List.mem_cons_of_mem _)

/-- A table holds nothing but what it was made of, whichever keys come twice. -/
theorem mem_of_mem_ofEntries {entries : List (String × α)} {entry : String × α}
    (isEntry : entry ∈ (ofEntries entries).entries) : entry ∈ entries := by
  have stored (arena : Arena α) : ∀ entry ∈
      (entries.foldl (fun arena entry => arena.insert entry.1 entry.2) arena).entries,
      entry ∈ arena.entries ∨ entry ∈ entries := by
    clear isEntry
    induction entries generalizing arena with
    | nil => exact fun entry isEntry => Or.inl isEntry
    | cons first rest ih =>
        intro entry isEntry
        rcases ih (arena.insert first.1 first.2) entry isEntry with earlier | later
        · rcases mem_put earlier with rfl | known
          · exact Or.inr List.mem_cons_self
          · exact Or.inl known
        · exact Or.inr (List.mem_cons_of_mem _ later)
  exact (stored empty entry isEntry).resolve_left List.not_mem_nil

end Arena

namespace Program

open Reader (Gives gives_pure)

theorem gives_readTable {α : Type} {value : Reader α} {good : α → Prop} (each : Gives value good) :
    Gives (readTable value) fun table => ∀ entry ∈ table.entries, good entry.2 :=
  (Reader.gives_dictionary each).map fun _ isGood entry isEntry =>
    isGood entry (Arena.mem_of_mem_ofEntries isEntry)

/-- The expressions, if they have been read, can be written. -/
def Parts.Writable (read : Parts) : Prop :=
  ∀ table, read.expressions = some table →
    ∀ entry ∈ table.entries, entry.2.isNonFiniteConstant = false

theorem gives_parts : ∀ field ∈ parts, ∀ read : Parts, read.Writable →
    Gives (field.read read) Parts.Writable := by
  have statement (room : Nat) : Gives (Statement.shape.read room) fun _ => True :=
    Wire.NodeShape.gives_read (fun _ _ _ _ _ => trivial) room
  intro field isField read writable
  simp only [parts, List.mem_cons, List.not_mem_nil, or_false] at isField
  rcases isField with rfl | rfl | rfl | rfl | rfl | rfl
  · exact (gives_readTable (statement _)).bind fun _ _ => gives_pure writable
  · refine (gives_readTable (Expression.gives_read _)).bind fun table each => gives_pure ?_
    intro stored same
    cases same
    exact each
  · exact (gives_readTable (Reader.gives_array Reader.shortens_text.gives)).bind
      fun _ _ => gives_pure writable
  · exact Reader.shortens_count.gives.bind fun _ _ => gives_pure writable
  · exact Reader.shortens_count.gives.bind fun _ _ => gives_pure writable
  · exact Reader.shortens_count.gives.bind fun _ _ => gives_pure writable

theorem expressions_of_ofParts? {read : Parts} {program : Program}
    (complete : ofParts? read = some program) : read.expressions = some program.expressions := by
  obtain ⟨statements, -, rest⟩ := Option.bind_eq_some_iff.mp complete
  obtain ⟨expressions, found, rest⟩ := Option.bind_eq_some_iff.mp rest
  obtain ⟨lists, -, rest⟩ := Option.bind_eq_some_iff.mp rest
  obtain ⟨statementCount, -, rest⟩ := Option.bind_eq_some_iff.mp rest
  obtain ⟨expressionCount, -, rest⟩ := Option.bind_eq_some_iff.mp rest
  obtain ⟨listCount, -, rest⟩ := Option.bind_eq_some_iff.mp rest
  cases rest
  exact found

/-- Whatever text a program is read from, its constants are finite. -/
theorem hasFiniteConstants_of_decode {source : String} {program : Program}
    (read : decode source = .ok program) : program.HasFiniteConstants := by
  have gives : Gives (Reader.record parts {} ofParts?) fun program =>
      ∀ entry ∈ program.expressions.entries, entry.2.isNonFiniteConstant = false := by
    apply Reader.gives_record gives_parts
    · intro table unread
      cases unread
    · intro filled program writable complete
      exact writable program.expressions (expressions_of_ofParts? complete)
  rw [hasFiniteConstants_iff, firstNonFinite?_eq_none_iff]
  exact gives.of_run read

end Program

end BlockStage

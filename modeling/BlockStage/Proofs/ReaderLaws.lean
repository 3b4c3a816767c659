import BlockStage.Json.Reader
import BlockStage.Proofs.DocumentTokens

/-!
# What readers read

A reader reads a row of tokens as a value when it takes exactly these tokens,
whatever follows them.  The laws of this module say which rows the readers of
scalars, arrays, objects and documents read.  A loop is described by the turns
it takes; a turn that goes on takes a token, so the number of tokens bounds the
number of turns and no loop is cut short.
-/

namespace BlockStage

namespace Reader

variable {α β σ : Type}

/-- A reader takes exactly the given tokens and gives a value for them. -/
def Reads (reader : Reader α) (tokens : List Token) (result : α) : Prop :=
  ∀ rest : List Token, reader (tokens ++ rest) = .ok (result, rest)

theorem bind_of_ok {reader : Reader α} {next : α → Reader β} {tokens rest : List Token}
    {result : α} (read : reader tokens = .ok (result, rest)) :
    (reader >>= next) tokens = next result rest := by
  simp only [bind, StateT.bind, read, Except.bind]

theorem bind_of_error {reader : Reader α} {next : α → Reader β} {tokens : List Token}
    {fault : Fault} (read : reader tokens = .error fault) :
    (reader >>= next) tokens = .error fault := by
  simp only [bind, StateT.bind, read, Except.bind]

theorem map_of_ok {reader : Reader α} {function : α → β} {tokens rest : List Token} {result : α}
    (read : reader tokens = .ok (result, rest)) :
    (function <$> reader) tokens = .ok (function result, rest) := by
  simp only [Functor.map, StateT.map, bind, Except.bind, read, pure, Except.pure]

theorem Reads.map {reader : Reader α} {tokens : List Token} {result : α}
    (reads : Reads reader tokens result) (function : α → β) :
    Reads (function <$> reader) tokens (function result) :=
  fun rest => map_of_ok (reads rest)

/-- What is read may be put into a larger value. -/
theorem Reads.andReturn {reader : Reader α} {function : α → β} {tokens : List Token} {result : α}
    (reads : Reads reader tokens result) :
    Reads (do return function (← reader)) tokens (function result) := by
  intro rest
  rw [bind_of_ok (reads rest)]
  rfl

theorem reads_text (content : String) : Reads text [.text (.ok content)] content :=
  fun _ => rfl

theorem reads_count (value : UInt64) : Reads count [.number (some (.count value))] value :=
  fun _ => rfl

/-! ### Loops -/

/-- The turns that a loop takes from a state to its result.  Every turn that goes
on takes a token. -/
inductive Walks (step : σ → Reader (σ ⊕ α)) : σ → List Token → α → List Token → Prop where
  | done {state : σ} {tokens rest : List Token} {result : α}
      (last : step state tokens = .ok (.inr result, rest)) : Walks step state tokens result rest
  | goOn {state next : σ} {tokens middle rest : List Token} {result : α}
      (turn : step state tokens = .ok (.inl next, middle))
      (shorter : middle.length < tokens.length) (later : Walks step next middle result rest) :
      Walks step state tokens result rest

/-- A turn that reads an entry goes on behind it. -/
theorem Walks.behind {step : σ → Reader (σ ⊕ α)} {state next : σ}
    {entry tokens rest : List Token} {result : α} (later : Walks step next tokens result rest)
    (turn : Reads (step state) entry (.inl next)) (nonempty : entry ≠ []) :
    Walks step state (entry ++ tokens) result rest := by
  refine .goOn (turn tokens) ?_ later
  have long := List.length_pos_iff.mpr nonempty
  rw [List.length_append]
  omega

theorem repeatFor_of_walks {step : σ → Reader (σ ⊕ α)} {state : σ} {tokens rest : List Token}
    {result : α} (walks : Walks step state tokens result rest) {turns : List Token}
    (enough : tokens.length < turns.length) :
    repeatFor step turns state tokens = .ok (result, rest) := by
  induction walks generalizing turns with
  | done last =>
      cases turns with
      | nil => cases enough
      | cons turn turns =>
          rw [repeatFor, bind_of_ok last]
          rfl
  | goOn turn shorter later ih =>
      cases turns with
      | nil => cases enough
      | cons first turns =>
          rw [repeatFor, bind_of_ok turn]
          simp only [List.length_cons] at enough
          exact ih (by omega)

theorem loop_of_walks {step : σ → Reader (σ ⊕ α)} {state : σ} {tokens rest : List Token}
    {result : α} (walks : Walks step state tokens result rest) :
    loop step state tokens = .ok (result, rest) :=
  repeatFor_of_walks walks (Nat.lt_succ_self _)

/-- A loop comes to a turn that fails. -/
inductive Stalls (step : σ → Reader (σ ⊕ α)) (fault : Fault) : σ → List Token → Prop where
  | now {state : σ} {tokens : List Token} (turn : step state tokens = .error fault) :
      Stalls step fault state tokens
  | later {state next : σ} {tokens middle : List Token}
      (turn : step state tokens = .ok (.inl next, middle))
      (shorter : middle.length < tokens.length) (later : Stalls step fault next middle) :
      Stalls step fault state tokens

theorem Stalls.behind {step : σ → Reader (σ ⊕ α)} {fault : Fault} {state next : σ}
    {entry tokens : List Token} (later : Stalls step fault next tokens)
    (turn : Reads (step state) entry (.inl next)) (nonempty : entry ≠ []) :
    Stalls step fault state (entry ++ tokens) := by
  refine .later (turn tokens) ?_ later
  have long := List.length_pos_iff.mpr nonempty
  rw [List.length_append]
  omega

theorem repeatFor_of_stalls {step : σ → Reader (σ ⊕ α)} {fault : Fault} {state : σ}
    {tokens : List Token} (stalls : Stalls step fault state tokens) {turns : List Token}
    (enough : tokens.length < turns.length) :
    repeatFor step turns state tokens = .error fault := by
  induction stalls generalizing turns with
  | now turn =>
      cases turns with
      | nil => cases enough
      | cons first turns => rw [repeatFor, bind_of_error turn]
  | later turn shorter later ih =>
      cases turns with
      | nil => cases enough
      | cons first turns =>
          rw [repeatFor, bind_of_ok turn]
          simp only [List.length_cons] at enough
          exact ih (by omega)

theorem loop_of_stalls {step : σ → Reader (σ ⊕ α)} {fault : Fault} {state : σ}
    {tokens : List Token} (stalls : Stalls step fault state tokens) :
    loop step state tokens = .error fault :=
  repeatFor_of_stalls stalls (Nat.lt_succ_self _)

/-! ### Rows of entries -/

/-- The tokens of the entries of a container from some place on, up to and
including its closing token.  The first entry has no comma in front of it. -/
def rowTokens (close : Token) : Bool → List (List Token) → List Token
  | _, [] => [close]
  | true, entry :: rest => entry ++ rowTokens close false rest
  | false, entry :: rest => .comma :: (entry ++ rowTokens close false rest)

/-- The tokens of a member of an object. -/
def memberRow (name : String) (value : List Token) : List Token :=
  .text (.ok name) :: .colon :: value

def separator (first : Bool) : List Token := if first then [] else [.comma]

theorem rowTokens_cons (close : Token) (first : Bool) (entry : List Token)
    (entries : List (List Token)) :
    rowTokens close first (entry :: entries) =
      separator first ++ entry ++ rowTokens close false entries := by
  cases first <;> simp [rowTokens, separator]

/-- Tokens that start with neither a closing bracket nor a comma. -/
def StartsItem (tokens : List Token) : Prop :=
  ∃ token rest, tokens = token :: rest ∧ token ≠ .closeArray ∧ token ≠ .comma

theorem hasItem_of_startsItem {entry : List Token} (starts : StartsItem entry) (first : Bool)
    (rest : List Token) :
    hasItem first (separator first ++ entry ++ rest) = .ok (true, entry ++ rest) := by
  obtain ⟨token, others, rfl, notClose, notComma⟩ := starts
  cases first with
  | true => cases token <;> simp_all [hasItem, separator]
  | false => cases token <;> simp_all [hasItem, separator]

theorem nextKey_of_member (first : Bool) (name : String) (rest : List Token) :
    nextKey first (separator first ++ .text (.ok name) :: rest) = .ok (some name, rest) := by
  cases first <;> rfl

theorem memberRow_ne_nil (first : Bool) (name : String) (tokens : List Token) :
    separator first ++ memberRow name tokens ≠ [] := by
  simp [memberRow]

theorem Reads.behind_key {next : Option String → Reader α} {value : Reader α} {name : String}
    {tokens : List Token} {result : α} (reads : Reads value tokens result) (first : Bool)
    (goesOn : next (some name) = (do colon; value)) :
    Reads (nextKey first >>= next) (separator first ++ memberRow name tokens) result := by
  intro rest
  rw [List.append_assoc, memberRow, List.cons_append, List.cons_append,
    bind_of_ok (nextKey_of_member first name _), goesOn, bind_of_ok rfl]
  exact reads rest

/-! ### Arrays and objects -/

/-- One turn of reading the items of an array. -/
def itemStep (item : Reader α) (collected : List α) : Reader (List α ⊕ List α) := do
  if ← hasItem collected.isEmpty then
    let next ← item
    return .inl (next :: collected)
  else
    closeArray
    return .inr collected.reverse

theorem items_eq (item : Reader α) : items item = loop (itemStep item) [] := rfl

theorem StartsItem.ne_nil {entry : List Token} (starts : StartsItem entry) (first : Bool) :
    separator first ++ entry ≠ [] := by
  obtain ⟨token, others, rfl, -⟩ := starts
  simp

theorem reads_itemStep {item : Reader α} {entry : List Token} {value : α}
    (starts : StartsItem entry) (reads : Reads item entry value) (collected : List α) :
    Reads (itemStep item collected) (separator collected.isEmpty ++ entry)
      (.inl (value :: collected)) := by
  intro rest
  rw [itemStep, bind_of_ok (hasItem_of_startsItem starts collected.isEmpty rest)]
  simp only [if_true]
  rw [bind_of_ok (reads rest)]
  rfl

theorem walks_items {item : Reader α} (entries : List (List Token × α))
    (each : ∀ entry ∈ entries, StartsItem entry.1 ∧ Reads item entry.1 entry.2)
    (collected : List α) (rest : List Token) :
    Walks (itemStep item) collected
      (rowTokens .closeArray collected.isEmpty (entries.map Prod.fst) ++ rest)
      (collected.reverse ++ entries.map Prod.snd) rest := by
  induction entries generalizing collected with
  | nil =>
      refine .done ?_
      simp only [List.map_nil, List.append_nil]
      rfl
  | cons entry entries ih =>
      obtain ⟨starts, reads⟩ := each entry List.mem_cons_self
      have later := ih (fun other member => each other (List.mem_cons_of_mem _ member))
        (entry.2 :: collected)
      rw [List.reverse_cons, List.append_assoc] at later
      rw [List.map_cons, List.map_cons, rowTokens_cons, List.append_assoc]
      exact later.behind (reads_itemStep starts reads collected) (starts.ne_nil _)

theorem reads_items {item : Reader α} (entries : List (List Token × α))
    (each : ∀ entry ∈ entries, StartsItem entry.1 ∧ Reads item entry.1 entry.2) :
    Reads (items item) (rowTokens .closeArray true (entries.map Prod.fst))
      (entries.map Prod.snd) := by
  intro rest
  rw [items_eq]
  exact loop_of_walks (walks_items entries each [] rest)

theorem reads_array {item : Reader α} (entries : List (List Token × α))
    (each : ∀ entry ∈ entries, StartsItem entry.1 ∧ Reads item entry.1 entry.2) :
    Reads (array item) (.openArray :: rowTokens .closeArray true (entries.map Prod.fst))
      (entries.map Prod.snd) :=
  reads_items entries each

/-- One turn of reading the members of an object. -/
def memberStep (value : String → Reader α) (collected : List (String × α)) :
    Reader (List (String × α) ⊕ List (String × α)) := do
  match ← nextKey collected.isEmpty with
  | some name =>
      colon
      let next ← value name
      return .inl ((name, next) :: collected)
  | none =>
      closeObject
      return .inr collected.reverse

theorem members_eq (value : String → Reader α) : members value = loop (memberStep value) [] := rfl

theorem reads_memberStep {value : String → Reader α} {name : String} {tokens : List Token}
    {result : α} (reads : Reads (value name) tokens result) (collected : List (String × α)) :
    Reads (memberStep value collected) (separator collected.isEmpty ++ memberRow name tokens)
      (.inl ((name, result) :: collected)) := by
  have entry : Reads (do return Sum.inl ((name, ← value name) :: collected)) tokens
      (Sum.inl ((name, result) :: collected) : List (String × α) ⊕ List (String × α)) :=
    reads.andReturn
  exact entry.behind_key collected.isEmpty rfl

theorem walks_members {value : String → Reader α} (entries : List (String × List Token × α))
    (each : ∀ entry ∈ entries, Reads (value entry.1) entry.2.1 entry.2.2)
    (collected : List (String × α)) (rest : List Token) :
    Walks (memberStep value) collected
      (rowTokens .closeObject collected.isEmpty
        (entries.map fun entry => memberRow entry.1 entry.2.1) ++ rest)
      (collected.reverse ++ entries.map fun entry => (entry.1, entry.2.2)) rest := by
  induction entries generalizing collected with
  | nil =>
      refine .done ?_
      simp only [List.map_nil, List.append_nil]
      rfl
  | cons entry entries ih =>
      have reads := each entry List.mem_cons_self
      have later := ih (fun other member => each other (List.mem_cons_of_mem _ member))
        ((entry.1, entry.2.2) :: collected)
      rw [List.reverse_cons, List.append_assoc] at later
      rw [List.map_cons, List.map_cons, rowTokens_cons, List.append_assoc]
      exact later.behind (reads_memberStep reads collected) (memberRow_ne_nil _ _ _)

theorem reads_members {value : String → Reader α} (entries : List (String × List Token × α))
    (each : ∀ entry ∈ entries, Reads (value entry.1) entry.2.1 entry.2.2) :
    Reads (members value)
      (rowTokens .closeObject true (entries.map fun entry => memberRow entry.1 entry.2.1))
      (entries.map fun entry => (entry.1, entry.2.2)) := by
  intro rest
  rw [members_eq]
  exact loop_of_walks (walks_members entries each [] rest)

theorem reads_dictionary {value : Reader α} (entries : List (String × List Token × α))
    (each : ∀ entry ∈ entries, Reads value entry.2.1 entry.2.2) :
    Reads (dictionary value)
      (.openObject ::
        rowTokens .closeObject true (entries.map fun entry => memberRow entry.1 entry.2.1))
      (entries.map fun entry => (entry.1, entry.2.2)) :=
  @reads_members _ (fun _ => value) entries each

/-! ### Records -/

/-- Members fill the parts of a record one after the other; members under other names are passed
over. -/
inductive Fills (fields : List (Field σ)) : σ → List (String × List Token) → σ → Prop where
  | nil {record : σ} : Fills fields record [] record
  | cons {record next last : σ} {field : Field σ} {name : String} {tokens : List Token}
      {rest : List (String × List Token)}
      (known : (fields.find? fun field => field.name == name) = some field)
      (isUnset : field.isSet record = false) (reads : Reads (field.read record) tokens next)
      (later : Fills fields next rest last) : Fills fields record ((name, tokens) :: rest) last
  | passed {record last : σ} {name : String} {tokens : List Token}
      {rest : List (String × List Token)}
      (unknown : (fields.find? fun field => field.name == name) = none)
      (reads : Reads skip tokens ()) (later : Fills fields record rest last) :
      Fills fields record ((name, tokens) :: rest) last

/-- One turn of reading the members of a record. -/
def recordStep (fields : List (Field σ)) (state : Bool × σ) : Reader ((Bool × σ) ⊕ σ) := do
  match ← nextKey state.1 with
  | some name =>
      match fields.find? fun field => field.name == name with
      | some field =>
          if field.isSet state.2 then fail .mismatched
          else
            colon
            let next ← field.read state.2
            return .inl (false, next)
      | none =>
          colon
          skip
          return .inl (false, state.2)
  | none =>
      return .inr state.2

theorem recordMembers_eq (fields : List (Field σ)) (blank : σ) :
    recordMembers fields blank = loop (recordStep fields) (true, blank) := rfl

theorem reads_recordStep {fields : List (Field σ)} {field : Field σ} {name : String}
    {tokens : List Token} {record next : σ}
    (known : (fields.find? fun field => field.name == name) = some field)
    (isUnset : field.isSet record = false) (reads : Reads (field.read record) tokens next)
    (first : Bool) :
    Reads (recordStep fields (first, record)) (separator first ++ memberRow name tokens)
      (.inl (false, next)) := by
  have entry : Reads (do return Sum.inl (false, ← field.read record)) tokens
      (Sum.inl (false, next) : (Bool × σ) ⊕ σ) := reads.andReturn
  refine entry.behind_key first ?_
  simp only [known, isUnset, Bool.false_eq_true, if_false]

theorem reads_recordStep_unknown {fields : List (Field σ)} {name : String} {tokens : List Token}
    (unknown : (fields.find? fun field => field.name == name) = none)
    (reads : Reads skip tokens ()) (first : Bool) (record : σ) :
    Reads (recordStep fields (first, record)) (separator first ++ memberRow name tokens)
      (.inl (false, record)) := by
  have entry : Reads (do skip; return Sum.inl (false, record)) tokens
      (Sum.inl (false, record) : (Bool × σ) ⊕ σ) := reads.andReturn
  refine entry.behind_key first ?_
  simp only [unknown]

theorem walks_record {fields : List (Field σ)} {record last : σ}
    {entries : List (String × List Token)} (fills : Fills fields record entries last)
    (first : Bool) (rest : List Token) :
    Walks (recordStep fields) (first, record)
      (rowTokens .closeObject first (entries.map fun entry => memberRow entry.1 entry.2) ++ rest)
      last (.closeObject :: rest) := by
  induction fills generalizing first with
  | nil => exact .done rfl
  | cons known isUnset reads later ih =>
      rw [List.map_cons, rowTokens_cons, List.append_assoc]
      exact (ih false).behind (reads_recordStep known isUnset reads first) (memberRow_ne_nil _ _ _)
  | passed unknown reads later ih =>
      rw [List.map_cons, rowTokens_cons, List.append_assoc]
      exact (ih false).behind (reads_recordStep_unknown unknown reads first _)
        (memberRow_ne_nil _ _ _)

/-- A record of which all parts are filled is read as a whole. -/
theorem reads_record {ρ : Type} {fields : List (Field σ)} {blank last : σ}
    {finish : σ → Option ρ} {result : ρ} {entries : List (String × List Token)}
    (fills : Fills fields blank entries last) (complete : finish last = some result) :
    Reads (record fields blank finish)
      (.openObject ::
        rowTokens .closeObject true (entries.map fun entry => memberRow entry.1 entry.2))
      result := by
  intro rest
  have read := loop_of_walks (walks_record fills true rest)
  rw [← recordMembers_eq] at read
  rw [List.cons_append, record, bind_of_ok read]
  simp only [complete]
  rw [bind_of_ok rfl]
  rfl

/-! ### Whole texts -/

theorem run_of_reads {reader : Reader α} {source : String} {tokens : List Token} {result : α}
    (cut : Token.tokenize source.toList = tokens) (reads : Reads reader tokens result) :
    run reader source = .ok result := by
  have read := reads []
  rw [List.append_nil] at read
  rw [run, cut, read]

end Reader

/-! ### Documents -/

namespace Json

open Reader

theorem itemTokens_cons (item : Json) (rest : List Json) :
    itemTokens (item :: rest) = item.tokens ++ rowTokens .closeArray false (rest.map tokens) := by
  induction rest generalizing item with
  | nil => rfl
  | cons next rest ih =>
      rw [itemTokens, ih]
      rfl

theorem itemTokens_eq (items : List Json) :
    itemTokens items = rowTokens .closeArray true (items.map tokens) := by
  cases items with
  | nil => rfl
  | cons item rest => exact itemTokens_cons item rest

theorem memberTokens_cons (key : String) (value : Json) (rest : List (String × Json)) :
    memberTokens ((key, value) :: rest) = memberRow key value.tokens ++
      rowTokens .closeObject false
        (rest.map fun member => memberRow member.1 member.2.tokens) := by
  induction rest generalizing key value with
  | nil => rfl
  | cons next rest ih =>
      rw [memberTokens, ih]
      rfl

theorem memberTokens_eq (members : List (String × Json)) :
    memberTokens members = rowTokens .closeObject true
      (members.map fun member => memberRow member.1 member.2.tokens) := by
  cases members with
  | nil => rfl
  | cons member rest => exact memberTokens_cons member.1 member.2 rest

theorem startsItem_tokens (document : Json) : StartsItem document.tokens := by
  cases document with
  | null => exact ⟨.null, [], rfl, by simp, by simp⟩
  | bool value => exact ⟨.bool value, [], rfl, by simp, by simp⟩
  | number value => exact ⟨.number (some value), [], rfl, by simp, by simp⟩
  | text content => exact ⟨.text (.ok content), [], rfl, by simp, by simp⟩
  | array items => exact ⟨.openArray, itemTokens items, rfl, by simp, by simp⟩
  | object members => exact ⟨.openObject, memberTokens members, rfl, by simp, by simp⟩

mutual

/-- At most `room` containers of a document stand inside each other. -/
def Fits : Json → Nat → Prop
  | .array _, 0 => False
  | .array items, room + 1 => ItemsFit items room
  | .object _, 0 => False
  | .object members, room + 1 => MembersFit members room
  | _, _ => True

/-- The items of an array fit into the room that is left to them. -/
def ItemsFit : List Json → Nat → Prop
  | [], _ => True
  | item :: rest, room => item.Fits room ∧ ItemsFit rest room

/-- The members of an object fit into the room that is left to them. -/
def MembersFit : List (String × Json) → Nat → Prop
  | [], _ => True
  | (_, value) :: rest, room => value.Fits room ∧ MembersFit rest room

end

mutual

/-- A document that fits into the room is read back from its tokens. -/
theorem reads_value : (document : Json) → (room : Nat) → document.Fits room →
    Reads (Reader.value room) document.tokens document
  | .null, 0, _ => fun _ => rfl
  | .null, _ + 1, _ => fun _ => rfl
  | .bool _, 0, _ => fun _ => rfl
  | .bool _, _ + 1, _ => fun _ => rfl
  | .number _, 0, _ => fun _ => rfl
  | .number _, _ + 1, _ => fun _ => rfl
  | .text _, 0, _ => fun _ => rfl
  | .text _, _ + 1, _ => fun _ => rfl
  | .array items, room + 1, fits => by
      have reads := reads_items (items.map fun item => (item.tokens, item))
        (reads_each_item items room fits)
      rw [tokens, itemTokens_eq]
      simp only [List.map_map, Function.comp_def, List.map_id_fun', id] at reads
      exact fun rest => map_of_ok (reads rest)
  | .object members, room + 1, fits => by
      have reads := @reads_members _ (fun _ => Reader.value room)
        (members.map fun member => (member.1, member.2.tokens, member.2))
        (reads_each_member members room fits)
      rw [tokens, memberTokens_eq]
      simp only [List.map_map, Function.comp_def, Prod.mk.eta, List.map_id_fun', id] at reads
      exact fun rest => map_of_ok (reads rest)

theorem reads_each_item : (items : List Json) → (room : Nat) → ItemsFit items room →
    ∀ entry ∈ items.map fun item => (item.tokens, item),
      StartsItem entry.1 ∧ Reads (Reader.value room) entry.1 entry.2
  | [], _, _ => by simp
  | item :: rest, room, fits => by
      rw [List.map_cons, List.forall_mem_cons]
      exact ⟨⟨startsItem_tokens item, reads_value item room fits.1⟩,
        reads_each_item rest room fits.2⟩

theorem reads_each_member : (members : List (String × Json)) → (room : Nat) →
    MembersFit members room →
    ∀ entry ∈ members.map fun member => (member.1, member.2.tokens, member.2),
      Reads (Reader.value room) entry.2.1 entry.2.2
  | [], _, _ => by simp
  | (_, value) :: rest, room, fits => by
      rw [List.map_cons, List.forall_mem_cons]
      exact ⟨reads_value value room fits.1, reads_each_member rest room fits.2⟩

end

end Json

end BlockStage

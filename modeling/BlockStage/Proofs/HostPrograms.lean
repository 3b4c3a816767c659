import BlockStage.Proofs.ProgramRoundTrip

/-!
# Programs written by other hands

Another program that writes a stored program may put the members of an object in any order, add
members of its own, and lay out the text as it likes.  Members of its own are passed over in the
outermost object, whatever they hold, and are set aside in nodes.  Whatever order the members come
in, what has been read of a program depends only on which members have been read, and a node is
built from the members that have the names of its contents; so the program is read back from
every such text.
-/

namespace BlockStage

namespace Reader

/-! ### Values passed over -/

variable {α σ : Type}

/-- How a loop goes on behind one of its turns. -/
def Resumes (step : σ → Reader (σ ⊕ α)) (turn : σ ⊕ α) (tokens : List Token) (result : α)
    (rest : List Token) : Prop :=
  match turn with
  | .inl next => Walks step next tokens result rest
  | .inr last => last = result ∧ tokens = rest

theorem Resumes.walks {step : σ → Reader (σ ⊕ α)} {state : σ} {turn : σ ⊕ α} {result : α}
    {tokens middle rest : List Token} (resumes : Resumes step turn middle result rest)
    (taken : step state tokens = .ok (turn, middle)) (shorter : middle.length < tokens.length) :
    Walks step state tokens result rest := by
  cases turn with
  | inl next => exact .goOn taken shorter resumes
  | inr last =>
      obtain ⟨rfl, rfl⟩ := resumes
      exact .done taken

/-- Two states with the same first turn. -/
theorem Walks.of_same_turn {step : σ → Reader (σ ⊕ α)} {state other : σ} {result : α}
    {tokens fewer rest : List Token} (walks : Walks step other fewer result rest)
    (same : step state tokens = step other fewer) (fewerTokens : fewer.length ≤ tokens.length) :
    Walks step state tokens result rest := by
  cases walks with
  | done last => exact .done (same.trans last)
  | goOn turn shorter later => exact .goOn (same.trans turn) (shorter.trans_le fewerTokens) later

def entryPosition (first : Bool) : Passing := if first then .opened else .passed

theorem skipStep_item {tokens : List Token} (starts : StartsItem tokens) (first : Bool)
    (outer : List Bracket) :
    skipStep (.array :: outer, entryPosition first) (separator first ++ tokens) =
      skipStep (.array :: outer, .atValue) tokens := by
  obtain ⟨token, others, rfl, notClose, notComma⟩ := starts
  cases first with
  | true => cases token <;> simp_all [skipStep, skipToValue, separator, entryPosition]
  | false => rfl

theorem skipStep_key (name : String) (tokens : List Token) (first : Bool) (outer : List Bracket) :
    skipStep (.object :: outer, entryPosition first)
        (separator first ++ memberRow name tokens) =
      .ok (.inl (.object :: outer, .atValue), tokens) := by
  cases first <;> rfl

end Reader

namespace Json

open Reader

mutual

/-- A document is passed over, whatever containers are open around it. -/
theorem walks_skip : (document : Json) → (brackets : List Bracket) → (tokens rest : List Token) →
    Resumes skipStep (afterValue brackets) tokens () rest →
    Walks skipStep (brackets, .atValue) (document.tokens ++ tokens) () rest
  | .null, _, _, _, resumes => resumes.walks rfl (Nat.lt_succ_self _)
  | .bool _, _, _, _, resumes => resumes.walks rfl (Nat.lt_succ_self _)
  | .number _, _, _, _, resumes => resumes.walks rfl (Nat.lt_succ_self _)
  | .text _, _, _, _, resumes => resumes.walks rfl (Nat.lt_succ_self _)
  | .array items, brackets, tokens, rest, resumes => by
      have inside := walks_skipItems items true brackets tokens rest resumes
      rw [← itemTokens_eq] at inside
      exact .goOn rfl (Nat.lt_succ_self _) inside
  | .object members, brackets, tokens, rest, resumes => by
      have inside := walks_skipMembers members true brackets tokens rest resumes
      rw [← memberTokens_eq] at inside
      exact .goOn rfl (Nat.lt_succ_self _) inside

theorem walks_skipItems : (items : List Json) → (first : Bool) → (outer : List Bracket) →
    (tokens rest : List Token) → Resumes skipStep (afterValue outer) tokens () rest →
    Walks skipStep (.array :: outer, entryPosition first)
      (rowTokens .closeArray first (items.map Json.tokens) ++ tokens) () rest
  | [], first, _, _, _, resumes => by
      refine resumes.walks ?_ (Nat.lt_succ_self _)
      cases first <;> rfl
  | item :: items, first, outer, tokens, rest, resumes => by
      have later := walks_skip item (.array :: outer) _ rest
        (walks_skipItems items false outer tokens rest resumes)
      rw [List.map_cons, rowTokens_cons, List.append_assoc, List.append_assoc]
      refine later.of_same_turn ?_ (by simp)
      obtain ⟨token, others, shape, notClose, notComma⟩ := startsItem_tokens item
      exact skipStep_item ⟨token, _, by rw [shape]; rfl, notClose, notComma⟩ first outer

theorem walks_skipMembers : (members : List (String × Json)) → (first : Bool) →
    (outer : List Bracket) → (tokens rest : List Token) →
    Resumes skipStep (afterValue outer) tokens () rest →
    Walks skipStep (.object :: outer, entryPosition first)
      (rowTokens .closeObject first
        (members.map fun member => memberRow member.1 member.2.tokens) ++ tokens) () rest
  | [], first, _, _, _, resumes => by
      refine resumes.walks ?_ (Nat.lt_succ_self _)
      cases first <;> rfl
  | (name, value) :: members, first, outer, tokens, rest, resumes => by
      have later := walks_skip value (.object :: outer) _ rest
        (walks_skipMembers members false outer tokens rest resumes)
      rw [List.map_cons, rowTokens_cons, List.append_assoc, List.append_assoc, memberRow,
        List.cons_append, List.cons_append]
      refine .goOn (skipStep_key name _ first outer) ?_ later
      simp only [List.length_append, List.length_cons]
      omega

end

/-- Every document is passed over as a whole. -/
theorem reads_skip (document : Json) : Reads skip document.tokens () :=
  fun rest => loop_of_walks (walks_skip document [] rest rest ⟨rfl, rfl⟩)

end Json

/-! ### Members in any order -/

namespace Reader

variable {σ : Type} {fields : List (Field σ)} {fill : List String → σ}

def isKnown (fields : List (Field σ)) (name : String) : Bool :=
  (fields.find? fun field => field.name == name).isSome

theorem isKnown_iff (name : String) :
    isKnown fields name = true ↔ name ∈ fields.map Field.name := by
  simp [isKnown]

/-- A member is read into its part of a record, whichever other parts have been read before, or
it is passed over. -/
def Settles (fields : List (Field σ)) (fill : List String → σ) (member : String × List Token) :
    Prop :=
  (∃ field, (fields.find? fun field => field.name == member.1) = some field ∧
    ∀ done, member.1 ∉ done → field.isSet (fill done) = false ∧
      Reads (field.read (fill done)) member.2 (fill (member.1 :: done))) ∨
  (fields.find? fun field => field.name == member.1) = none ∧ Reads skip member.2 ()

/-- The names of the members that belong to a record. -/
def knownNames (fields : List (Field σ)) (members : List (String × List Token)) : List String :=
  (members.map Prod.fst).filter (isKnown fields)

/-- Members that settle one by one fill a record in whatever order they come, as long as no part
comes twice. -/
theorem fills_of_settles (members : List (String × List Token))
    (settles : ∀ member ∈ members, Settles fields fill member) (done : List String)
    (distinct : (knownNames fields members ++ done).Nodup) :
    Fills fields (fill done) members (fill ((knownNames fields members).reverse ++ done)) := by
  induction members generalizing done with
  | nil => exact .nil
  | cons member members ih =>
      obtain ⟨name, tokens⟩ := member
      obtain ⟨settle, others⟩ := List.forall_mem_cons.mp settles
      rcases settle with ⟨field, known, reads⟩ | ⟨unknown, passes⟩
      · have names : knownNames fields ((name, tokens) :: members) =
            name :: knownNames fields members := by
          simp [knownNames, isKnown, known]
        rw [names] at distinct ⊢
        -- no member in front of this one has its name, so its part is still to be set
        obtain ⟨absent, -⟩ := List.nodup_cons.mp distinct
        obtain ⟨isUnset, read⟩ := reads done fun isDone => absent (List.mem_append_right _ isDone)
        rw [List.reverse_cons, List.append_assoc, List.singleton_append]
        refine .cons known isUnset read (ih others (name :: done) ?_)
        exact (List.perm_middle.nodup_iff).mpr distinct
      · have names : knownNames fields ((name, tokens) :: members) =
            knownNames fields members := by
          simp [knownNames, isKnown, unknown]
        rw [names] at distinct ⊢
        exact .passed unknown passes (ih others done distinct)

end Reader

/-! ### Documents of other hands -/

/-- The members of an object in any order, with others added under new names. -/
def Json.Decorates (Allowed : Json → Prop) (own members : List (String × Json)) : Prop :=
  ∃ extra, members.Perm (own ++ extra) ∧
    ∀ member ∈ extra, member.1 ∉ own.map Prod.fst ∧ Allowed member.2

/-- Members with the tokens of their values. -/
def Json.tokenized (members : List (String × Json)) : List (String × List Token) :=
  members.map fun member => (member.1, member.2.tokens)

/-- A text holds spellings of the tokens of a document, with any blanks between them. -/
def Json.LaidOut (document : Json) (text : String) : Prop :=
  ∃ words blanks, text.toList = words ++ blanks ∧
    Token.Layout Token.Spelled document.tokens words ∧ Token.AreBlank blanks

theorem Json.LaidOut.tokenize_eq {document : Json} {text : String}
    (laidOut : document.LaidOut text) : Token.tokenize text.toList = document.tokens := by
  obtain ⟨words, blanks, shape, layout, areBlank⟩ := laidOut
  rw [shape, layout.tokenize_eq document.separated_tokens areBlank]

namespace Program

/-- A node with its members in any order, and with members added whose values do not nest too
deeply.  Three containers are open around such a value. -/
def HostNode (stored written : Json) : Prop :=
  ∃ own members, stored = .object own ∧ written = .object members ∧
    Json.Decorates (fun value => value.Fits (Reader.maxRoom - 3)) own members

/-- A table with its entries in their order. -/
def HostTable {α : Type} (toJson : α → Json) (table : Arena α) (written : Json) : Prop :=
  ∃ members, written = .object members ∧
    List.Forall₂ (fun entry member => member.1 = entry.1 ∧ HostNode (toJson entry.2) member.2)
      table.entries members

/-- The members of a program whose nodes are written in some way. -/
def membersWith (program : Program) (statements expressions : Json) : List (String × Json) :=
  [("stats", statements), ("exprs", expressions),
    ("statLists", tableJson (fun items => .array (items.map .text)) program.lists),
    ("statCount", .number (.count program.statementCount)),
    ("exprCount", .number (.count program.expressionCount)),
    ("statListCount", .number (.count program.listCount))]

theorem toJson_eq (program : Program) :
    program.toJson = .object (program.membersWith
      (tableJson Statement.toJson program.statements)
      (tableJson Expression.toJson program.expressions)) := rfl

/-- A document of a program with all members in any order, and with members added to the program
and to its nodes. -/
def HostWritten (program : Program) (document : Json) : Prop :=
  ∃ statements expressions members, HostTable Statement.toJson program.statements statements ∧
    HostTable Expression.toJson program.expressions expressions ∧ document = .object members ∧
    Json.Decorates (fun _ => True) (program.membersWith statements expressions) members

theorem reads_hostNode {kind node : Type} {shape : Wire.NodeShape kind node} {tag : kind}
    {word : String} {contents : List (String × Json)} {result : node}
    (writes : shape.Writes tag word contents result) (named : shape.IsNamed) {written : Json}
    (host : HostNode (.object ((Wire.tagName, .text word) :: contents)) written) :
    Reader.Reads (shape.read (Reader.maxRoom - 2)) written.tokens result := by
  obtain ⟨own, members, stored, rfl, extra, perm, added⟩ := host
  obtain rfl := Json.object.inj stored
  refine writes.reads named perm (fun member isMember => ?_) fun member isMember =>
    (added member isMember).2
  have unknown := (added member isMember).1
  rw [List.map_cons, writes.keys] at unknown
  exact unknown

theorem reads_hostTable {α : Type} {toJson : α → Json} {reader : Reader α} {table : Arena α}
    {written : Json} (host : HostTable toJson table written)
    (each : ∀ entry ∈ table.entries, ∀ document, HostNode (toJson entry.2) document →
      Reader.Reads reader document.tokens entry.2) :
    Reader.Reads (readTable reader) written.tokens table := by
  obtain ⟨members, rfl, entries⟩ := host
  obtain ⟨lengths, pairs⟩ := List.forall₂_iff_zip.mp entries
  refine reads_table (List.forall₂_iff_zip.mpr ⟨lengths, ?_⟩)
  intro entry member isPair
  obtain ⟨name, node⟩ := pairs isPair
  exact ⟨name, each entry (List.of_mem_zip isPair).1 member.2 node⟩

/-- What has been read of a program when the members of some names have been read. -/
def partsRead (program : Program) (done : List String) : Parts where
  statements := if "stats" ∈ done then some program.statements else none
  expressions := if "exprs" ∈ done then some program.expressions else none
  lists := if "statLists" ∈ done then some program.lists else none
  statementCount := if "statCount" ∈ done then some program.statementCount else none
  expressionCount := if "exprCount" ∈ done then some program.expressionCount else none
  listCount := if "statListCount" ∈ done then some program.listCount else none

/-- A member settles if its part is set by it and by nothing else. -/
theorem settles_part {β : Type} {program : Program} {reader : Reader β} {name : String}
    {tokens : List Token} {value : β} {field : Reader.Field Parts} (put : β → Parts → Parts)
    (reads : Reader.Reads reader tokens value)
    (known : (parts.find? fun field => field.name == name) = some field)
    (read : ∀ record, field.read record = do return put (← reader) record)
    (isUnset : ∀ done, name ∉ done → field.isSet (program.partsRead done) = false)
    (fills : ∀ done, put value (program.partsRead done) = program.partsRead (name :: done)) :
    Reader.Settles parts program.partsRead (name, tokens) := by
  refine Or.inl ⟨field, known, fun done absent => ⟨isUnset done absent, ?_⟩⟩
  rw [read, ← fills]
  exact reads.andReturn

/-- The members of a program, in whatever way its nodes are written, settle in its parts. -/
theorem settles_members {program : Program}
    (finite : ∀ entry ∈ program.expressions.entries, entry.2.isNonFiniteConstant = false)
    {statements expressions : Json}
    (hostStatements : HostTable Statement.toJson program.statements statements)
    (hostExpressions : HostTable Expression.toJson program.expressions expressions) :
    ∀ member ∈ program.membersWith statements expressions,
      Reader.Settles parts program.partsRead (member.1, member.2.tokens) := by
  have statementsRead : Reader.Reads (readTable (Statement.shape.read (Reader.maxRoom - 2)))
      statements.tokens program.statements := by
    refine reads_hostTable hostStatements fun entry _ document host => ?_
    rw [Statement.toJson_eq] at host
    exact reads_hostNode entry.2.writes Statement.isNamed_shape host
  have expressionsRead : Reader.Reads (readTable (Expression.shape.read (Reader.maxRoom - 2)))
      expressions.tokens program.expressions := by
    refine reads_hostTable hostExpressions fun entry isEntry document host => ?_
    rw [Expression.toJson_eq] at host
    exact reads_hostNode (Expression.writes (finite entry isEntry)) Expression.isNamed_shape host
  have listsRead : Reader.Reads (readTable (Reader.array Reader.text))
      (tableJson (fun items => .array (items.map .text)) program.lists).tokens program.lists :=
    reads_tableJson fun entry _ => reads_list entry.2
  simp only [membersWith, List.forall_mem_cons, List.not_mem_nil, false_implies, implies_true,
    and_true]
  refine ⟨?_, ?_, ?_, ?_, ?_, ?_⟩
  · exact settles_part (fun table record => { record with statements := some table })
      statementsRead rfl (fun _ => rfl) (by simp [partsRead]) (by simp [partsRead])
  · exact settles_part (fun table record => { record with expressions := some table })
      expressionsRead rfl (fun _ => rfl) (by simp [partsRead]) (by simp [partsRead])
  · exact settles_part (fun table record => { record with lists := some table })
      listsRead rfl (fun _ => rfl) (by simp [partsRead]) (by simp [partsRead])
  · exact settles_part (fun count record => { record with statementCount := some count })
      (Reader.reads_count _) rfl (fun _ => rfl) (by simp [partsRead]) (by simp [partsRead])
  · exact settles_part (fun count record => { record with expressionCount := some count })
      (Reader.reads_count _) rfl (fun _ => rfl) (by simp [partsRead]) (by simp [partsRead])
  · exact settles_part (fun count record => { record with listCount := some count })
      (Reader.reads_count _) rfl (fun _ => rfl) (by simp [partsRead]) (by simp [partsRead])

theorem map_name_parts (program : Program) (statements expressions : Json) :
    parts.map Reader.Field.name = (program.membersWith statements expressions).map Prod.fst := rfl

theorem find?_added {program : Program} {statements expressions : Json} {name : String}
    (added : name ∉ (program.membersWith statements expressions).map Prod.fst) :
    (parts.find? fun field => field.name == name) = none := by
  rw [← map_name_parts, ← Reader.isKnown_iff, Reader.isKnown,
    Option.not_isSome_iff_eq_none] at added
  exact added

/-- Whatever the order of the members is, each part of a program is read once. -/
theorem knownNames_perm {program : Program} {statements expressions : Json}
    {members : List (String × Json)}
    (decorates : Json.Decorates (fun _ => True) (program.membersWith statements expressions)
      members) :
    (Reader.knownNames parts (Json.tokenized members)).Perm
      ((program.membersWith statements expressions).map Prod.fst) := by
  obtain ⟨extra, perm, added⟩ := decorates
  have known : ((program.membersWith statements expressions).map Prod.fst).filter
      (Reader.isKnown parts) = (program.membersWith statements expressions).map Prod.fst := rfl
  have unknown : (extra.map Prod.fst).filter (Reader.isKnown parts) = [] := by
    simp only [List.filter_eq_nil_iff, List.forall_mem_map]
    intro member isMember
    simp [Reader.isKnown, find?_added (added member isMember).1]
  have names := (perm.map Prod.fst).filter (Reader.isKnown parts)
  rw [List.map_append, List.filter_append, known, unknown, List.append_nil] at names
  rw [Reader.knownNames, Json.tokenized, List.map_map]
  exact names

/-- A program with finite constants is read from every document in which it is written. -/
theorem reads_hostWritten {program : Program}
    (finite : ∀ entry ∈ program.expressions.entries, entry.2.isNonFiniteConstant = false)
    {document : Json} (host : program.HostWritten document) :
    Reader.Reads (Reader.record parts {} ofParts?) document.tokens program := by
  obtain ⟨statements, expressions, members, hostStatements, hostExpressions, rfl, decorates⟩ := host
  have known := knownNames_perm decorates
  obtain ⟨extra, perm, added⟩ := decorates
  have settles : ∀ entry ∈ Json.tokenized members,
      Reader.Settles parts program.partsRead entry := by
    simp only [Json.tokenized, List.forall_mem_map]
    intro member isMember
    rcases List.mem_append.mp (perm.mem_iff.mp isMember) with own | isExtra
    · exact settles_members finite hostStatements hostExpressions member own
    · exact Or.inr ⟨find?_added (added member isExtra).1, member.2.reads_skip⟩
  have distinct : (Reader.knownNames parts (Json.tokenized members) ++ []).Nodup := by
    rw [List.append_nil, known.nodup_iff, ← map_name_parts]
    decide
  have fills := Reader.fills_of_settles _ settles [] distinct
  -- the order in which the parts were read is gone from the record
  have complete : ofParts? (program.partsRead
      ((Reader.knownNames parts (Json.tokenized members)).reverse ++ [])) = some program := by
    simp [partsRead, ofParts?, known.mem_iff, membersWith]
  have reads := Reader.reads_record fills complete
  rw [Json.tokenized, List.map_map] at reads
  rw [Json.tokens, Json.memberTokens_eq]
  exact reads

theorem hostNode_object (members : List (String × Json)) :
    HostNode (.object members) (.object members) :=
  ⟨members, members, rfl, rfl, [], by simp, by simp⟩

theorem hostTable_tableJson {α : Type} {toJson : α → Json}
    (each : ∀ value, HostNode (toJson value) (toJson value)) (table : Arena α) :
    HostTable toJson table (tableJson toJson table) := by
  refine ⟨_, rfl, List.forall₂_map_right_iff.mpr ?_⟩
  exact List.forall₂_same.mpr fun entry _ => ⟨rfl, each entry.2⟩

/-- The document that is stored is one of them. -/
theorem hostWritten_toJson (program : Program) : program.HostWritten program.toJson := by
  refine ⟨_, _, _, hostTable_tableJson (fun statement => ?_) _,
    hostTable_tableJson (fun expression => ?_) _, program.toJson_eq, [], by simp, by simp⟩
  · rw [Statement.toJson_eq]
    exact hostNode_object _
  · rw [Expression.toJson_eq]
    exact hostNode_object _

/-- A program is read back from every text of another hand, which may have the members of the
stored document and those of its nodes in any order, other members added to it and to its nodes,
the tokens spelled in any way and any blanks between them. -/
theorem host_written_text_is_read (program : Program) (finite : program.HasFiniteConstants) :
    program.HostWritten program.toJson ∧
      ∀ (document : Json) (text : String), program.HostWritten document →
        document.LaidOut text → decode text = .ok program := by
  refine ⟨program.hostWritten_toJson, fun document text host laidOut => ?_⟩
  have entriesFinite := (firstNonFinite?_eq_none_iff program).mp
    ((hasFiniteConstants_iff program).mp finite)
  exact Reader.run_of_reads laidOut.tokenize_eq (reads_hostWritten entriesFinite host)

/-- A program that sleeps for half a second. -/
def halfSleep : Program where
  statements := .ofEntries [("stat-0", .sleep "expr-0")]
  expressions := .ofEntries [("expr-0", .constant 0.5)]
  lists := .ofEntries [(entryList, ["stat-0"])]
  statementCount := 1
  expressionCount := 1
  listCount := 0

/-- The statements of the program, with the keyword behind the contents. -/
def halfSleepStatements : Json :=
  .object [("stat-0", .object [("value", .text "expr-0"), (Wire.tagName, .text "sleep")])]

/-- The expressions of the program, with a member added to the constant. -/
def halfSleepExpressions : Json :=
  .object [("expr-0", .object [(Wire.tagName, .text "const"), ("unit", .text "s"),
    ("value", .number (.real 0.5))])]

/-- A document of the program with its members in reverse order and one added to them. -/
def halfSleepDocument : Json :=
  .object (halfSleep.membersWith halfSleepStatements halfSleepExpressions ++
    [("author", Json.array [.null, .object []])]).reverse

theorem halfSleep_hostWritten : halfSleep.HostWritten halfSleepDocument := by
  have half : Json.ofFloat 0.5 = .number (.real 0.5) := if_pos (by decide +kernel)
  refine ⟨halfSleepStatements, halfSleepExpressions, _, ⟨_, rfl, ?_⟩, ⟨_, rfl, ?_⟩, rfl,
    [("author", .array [.null, .object []])], List.reverse_perm _, ?_⟩
  · exact .cons ⟨rfl, _, _, rfl, rfl, [], List.Perm.swap _ _ _, by simp⟩ .nil
  · refine .cons ⟨rfl, [(Wire.tagName, .text "const"), ("value", .number (.real 0.5))], _, ?_, rfl,
      [("unit", .text "s")], (List.Perm.swap _ _ _).cons _, ?_⟩ .nil
    · rw [← half]
      rfl
    · simp [Wire.tagName, Json.Fits]
  · simp [membersWith]

theorem halfSleepDocument_laidOut :
    halfSleepDocument.LaidOut (halfSleepDocument.toIndentedText ++ "\n") := by
  have finite : halfSleepDocument.IsFinite := by
    have half : (0.5 : Float).isFinite = true := by decide +kernel
    simpa [halfSleepDocument, halfSleepStatements, halfSleepExpressions, membersWith, tableJson,
      halfSleep, Arena.ofEntries, Arena.insert, Arena.empty, Arena.put, Json.IsFinite,
      Json.MembersFinite, Json.AreFinite, Numeral.IsFinite] using half
  refine ⟨halfSleepDocument.indented 0, ['\n'], ?_, ?_, ?_⟩
  · simp [Json.toIndentedText]
  · exact (Json.layout_indented 0 _ finite).mono Token.Stored.spelled
  · simp [Token.AreBlank, Token.isBlank]

theorem halfSleep_read : halfSleep.HasFiniteConstants ∧ halfSleep.HostWritten halfSleepDocument ∧
    halfSleepDocument.LaidOut (halfSleepDocument.toIndentedText ++ "\n") ∧
    decode (halfSleepDocument.toIndentedText ++ "\n") = .ok halfSleep := by
  have finite : halfSleep.HasFiniteConstants := by
    rw [hasFiniteConstants_iff]
    decide +kernel
  exact ⟨finite, halfSleep_hostWritten, halfSleepDocument_laidOut,
    (host_written_text_is_read halfSleep finite).2 halfSleepDocument _ halfSleep_hostWritten
      halfSleepDocument_laidOut⟩

end Program

end BlockStage

import BlockStage.Digest
import BlockStage.Wire.Program
import BlockStage.Proofs.NodeContents

/-!
# Stored programs are read back

A program can be stored exactly when all its constants are finite, and either
stored text is read back as the very same program: the same entries in the same
order, the same counters, and constants with the same bits.  The tables are read
entry by entry, and a table without repeated keys is rebuilt as it was.
-/

namespace BlockStage

open Reader (Reads Fills)

/-! ### Tables -/

namespace Arena

variable {α : Type}

theorem put_of_not_mem {id : String} (value : α) {entries : List (String × α)}
    (absent : id ∉ entries.map Prod.fst) : put id value entries = entries ++ [(id, value)] := by
  induction entries with
  | nil => rfl
  | cons entry rest ih =>
      rw [List.map_cons, List.mem_cons, not_or] at absent
      rw [put, if_neg (Ne.symm absent.1), ih absent.2, List.cons_append]

/-- Storing entries with new keys one after the other adds them in their order. -/
theorem entries_foldl_insert (arena : Arena α) (entries : List (String × α))
    (distinct : ((arena.entries ++ entries).map Prod.fst).Nodup) :
    (entries.foldl (fun arena entry => arena.insert entry.1 entry.2) arena).entries =
      arena.entries ++ entries := by
  induction entries generalizing arena with
  | nil => rw [List.foldl_nil, List.append_nil]
  | cons entry rest ih =>
      have absent : entry.1 ∉ arena.entries.map Prod.fst := by
        rw [List.map_append, List.map_cons] at distinct
        intro member
        exact (List.nodup_append.mp distinct).2.2 _ member _ List.mem_cons_self rfl
      have stored : (arena.insert entry.1 entry.2).entries = arena.entries ++ [entry] :=
        put_of_not_mem entry.2 absent
      rw [List.foldl_cons, ih, stored, List.append_assoc, List.singleton_append]
      rw [stored, List.append_assoc, List.singleton_append]
      exact distinct

theorem ofEntries_entries (arena : Arena α) : ofEntries arena.entries = arena := by
  apply ext_entries
  rw [ofEntries, entries_foldl_insert]
  · rfl
  · exact arena.keys_nodup

end Arena

namespace Program

variable {α : Type}

theorem isFinite_tableJson {toJson : α → Json} (each : ∀ value, (toJson value).IsFinite)
    (table : Arena α) : (tableJson toJson table).IsFinite := by
  refine Json.membersFinite_of_forall ?_
  intro member isMember
  obtain ⟨entry, -, rfl⟩ := List.mem_map.mp isMember
  exact each entry.2

/-- A table is read from members with its keys that are read as its values. -/
theorem reads_table {reader : Reader α} {table : Arena α} {members : List (String × Json)}
    (each : List.Forall₂ (fun entry member => member.1 = entry.1 ∧
      Reads reader member.2.tokens entry.2) table.entries members) :
    Reads (readTable reader) (Json.object members).tokens table := by
  obtain ⟨rows, read, entries, row⟩ : ∃ rows : List (String × List Token × α),
      (∀ row ∈ rows, Reads reader row.2.1 row.2.2) ∧
        (rows.map fun row => (row.1, row.2.2)) = table.entries ∧
        (rows.map fun row => Reader.memberRow row.1 row.2.1) =
          members.map fun member => Reader.memberRow member.1 member.2.tokens := by
    generalize table.entries = entries at each
    induction each with
    | nil => exact ⟨[], by simp, rfl, rfl⟩
    | @cons entry member entries members first others ih =>
        obtain ⟨rows, read, sameEntries, sameRows⟩ := ih
        refine ⟨(entry.1, member.2.tokens, entry.2) :: rows,
          List.forall_mem_cons.mpr ⟨first.2, read⟩, ?_, ?_⟩
        · rw [List.map_cons, sameEntries]
        · rw [List.map_cons, List.map_cons, sameRows, first.1]
  have rebuilt := (Reader.reads_dictionary rows read).map Arena.ofEntries
  rw [entries, row, Arena.ofEntries_entries] at rebuilt
  rw [Json.tokens, Json.memberTokens_eq]
  exact rebuilt

theorem reads_tableJson {toJson : α → Json} {reader : Reader α} {table : Arena α}
    (each : ∀ entry ∈ table.entries, Reads reader (toJson entry.2).tokens entry.2) :
    Reads (readTable reader) (tableJson toJson table).tokens table := by
  refine reads_table (List.forall₂_map_right_iff.mpr ?_)
  exact List.forall₂_same.mpr fun entry isEntry => ⟨rfl, each entry isEntry⟩

theorem reads_list (items : List StatementId) :
    Reads (Reader.array Reader.text) (Json.array (items.map .text)).tokens items := by
  have reads := Reader.reads_array (items.map fun item => ([Token.text (.ok item)], item)) (by
    intro entry isMember
    obtain ⟨item, -, rfl⟩ := List.mem_map.mp isMember
    exact ⟨⟨_, _, rfl, by simp, by simp⟩, Reader.reads_text item⟩)
  simp only [List.map_map, Function.comp_def, List.map_id_fun', id] at reads
  rw [Json.tokens, Json.itemTokens_eq]
  simpa only [List.map_map, Function.comp_def, Json.tokens] using reads

/-! ### Programs -/

/-- Every constant of a program has a written form. -/
def HasFiniteConstants (program : Program) : Prop :=
  ∀ id value, (id, Expression.constant value) ∈ program.expressions.entries →
    value.isFinite = true

/-- The digest under which a program is stored, which is that of its text without
blanks. -/
def digest (program : Program) : Except NonFiniteConstant String :=
  program.encode.map Digest.ofText

theorem isFinite_toJson (program : Program) : program.toJson.IsFinite := by
  have lists : ∀ items : List StatementId, (Json.array (items.map .text)).IsFinite := by
    intro items
    refine Json.areFinite_of_forall ?_
    simp [Json.IsFinite]
  exact ⟨isFinite_tableJson Statement.isFinite_toJson _,
    isFinite_tableJson Expression.isFinite_toJson _, isFinite_tableJson lists _,
    trivial, trivial, trivial, trivial⟩

/-- The parts of a program are filled by the members of its document. -/
theorem fills_parts {program : Program}
    (finite : ∀ entry ∈ program.expressions.entries, entry.2.isNonFiniteConstant = false) :
    Fills parts {}
      [("stats", (tableJson Statement.toJson program.statements).tokens),
        ("exprs", (tableJson Expression.toJson program.expressions).tokens),
        ("statLists",
          (tableJson (fun items => .array (items.map .text)) program.lists).tokens),
        ("statCount", (Json.number (.count program.statementCount)).tokens),
        ("exprCount", (Json.number (.count program.expressionCount)).tokens),
        ("statListCount", (Json.number (.count program.listCount)).tokens)]
      ⟨some program.statements, some program.expressions, some program.lists,
        some program.statementCount, some program.expressionCount, some program.listCount⟩ := by
  have statements : Reads (readTable (Statement.shape.read (Reader.maxRoom - 2)))
      (tableJson Statement.toJson program.statements).tokens program.statements :=
    reads_tableJson fun entry _ => Statement.reads_toJson entry.2 _
  have expressions : Reads (readTable (Expression.shape.read (Reader.maxRoom - 2)))
      (tableJson Expression.toJson program.expressions).tokens program.expressions :=
    reads_tableJson fun entry isEntry => Expression.reads_toJson (finite entry isEntry) _
  have lists : Reads (readTable (Reader.array Reader.text))
      (tableJson (fun items => .array (items.map .text)) program.lists).tokens program.lists :=
    reads_tableJson fun entry _ => reads_list entry.2
  exact .cons rfl rfl statements.andReturn (.cons rfl rfl expressions.andReturn
    (.cons rfl rfl lists.andReturn (.cons rfl rfl (Reader.reads_count _).andReturn
      (.cons rfl rfl (Reader.reads_count _).andReturn
        (.cons rfl rfl (Reader.reads_count _).andReturn .nil)))))

/-- The tokens of a program with finite constants are read as the program. -/
theorem reads_toJson {program : Program}
    (finite : ∀ entry ∈ program.expressions.entries, entry.2.isNonFiniteConstant = false) :
    Reads (Reader.record parts {} ofParts?) program.toJson.tokens program := by
  have reads := Reader.reads_record (fills_parts finite)
    (show ofParts? _ = some program from rfl)
  rw [toJson, Json.tokens, Json.memberTokens_eq]
  exact reads

theorem firstNonFinite?_eq_none_iff (program : Program) :
    program.firstNonFinite? = none ↔
      ∀ entry ∈ program.expressions.entries, entry.2.isNonFiniteConstant = false := by
  simp [firstNonFinite?]

/-- Both texts of a program are read back as the program. -/
theorem decode_of_encode {program : Program} {text : String}
    (written : program.encode = .ok text ∨ program.encodeIndented = .ok text) :
    decode text = .ok program := by
  cases first : program.firstNonFinite? with
  | some expression => simp [encode, encodeIndented, first] at written
  | none =>
      have reads := reads_toJson ((firstNonFinite?_eq_none_iff program).mp first)
      simp only [encode, encodeIndented, first, Except.ok.injEq] at written
      rcases written with rfl | rfl
      · exact Reader.run_of_reads (Json.tokenize_toText program.isFinite_toJson) reads
      · exact Reader.run_of_reads (Json.tokenize_toIndentedText program.isFinite_toJson) reads

theorem hasFiniteConstants_iff (program : Program) :
    program.HasFiniteConstants ↔ program.firstNonFinite? = none := by
  rw [firstNonFinite?_eq_none_iff]
  constructor
  · intro finite entry isEntry
    obtain ⟨id, expression⟩ := entry
    cases expression with
    | constant value => simp [Expression.isNonFiniteConstant, finite id value isEntry]
    | read name => rfl
    | negate operand => rfl
    | binary operator left right => rfl
  · intro finite id value isEntry
    simpa [Expression.isNonFiniteConstant] using finite _ isEntry

theorem exists_encode_iff (program : Program) :
    (∃ text, program.encode = .ok text) ↔ program.firstNonFinite? = none := by
  cases first : program.firstNonFinite? <;> simp [encode, first]

theorem exists_encodeIndented_iff (program : Program) :
    (∃ text, program.encodeIndented = .ok text) ↔ program.firstNonFinite? = none := by
  cases first : program.firstNonFinite? <;> simp [encodeIndented, first]

/-- The expression that a refusal names is the first one, in table order, whose
constant is not finite. -/
theorem firstNonFinite?_eq_some {program : Program} {id : ExpressionId}
    (first : program.firstNonFinite? = some id) :
    ∃ before value after,
      program.expressions.entries = before ++ (id, .constant value) :: after ∧
      value.isFinite = false ∧
      ∀ other earlier, (other, Expression.constant earlier) ∈ before →
        earlier.isFinite = true := by
  obtain ⟨⟨id', expression⟩, found, rfl⟩ := Option.map_eq_some_iff.mp first
  obtain ⟨nonFinite, before, after, entries, earlierFinite⟩ :=
    List.find?_eq_some_iff_append.mp found
  cases expression with
  | constant value =>
      refine ⟨before, value, after, entries, ?_, ?_⟩
      · simpa [Expression.isNonFiniteConstant] using nonFinite
      · intro other earlier isEarlier
        simpa [Expression.isNonFiniteConstant] using earlierFinite _ isEarlier
  | read name => cases nonFinite
  | negate operand => cases nonFinite
  | binary operator left right => cases nonFinite

/-- A program is stored exactly when its constants are finite, and is otherwise
refused for its first constant that is not.  Either stored text is read back as
the program itself, so it is stored again as the same text under the same
digest. -/
theorem stored_text_reads_back (program : Program) :
    ((∃ text, program.encode = .ok text) ↔ program.HasFiniteConstants) ∧
    ((∃ text, program.encodeIndented = .ok text) ↔ program.HasFiniteConstants) ∧
    (¬ program.HasFiniteConstants →
      ∃ before id value after,
        program.expressions.entries = before ++ (id, .constant value) :: after ∧
        value.isFinite = false ∧
        (∀ other earlier, (other, Expression.constant earlier) ∈ before →
          earlier.isFinite = true) ∧
        program.encode = .error ⟨id⟩ ∧ program.encodeIndented = .error ⟨id⟩) ∧
    ∀ text, program.encode = .ok text ∨ program.encodeIndented = .ok text →
      ∃ back, decode text = .ok back ∧ back = program ∧
        back.encode = program.encode ∧ back.digest = program.digest := by
  refine ⟨?_, ?_, ?_, ?_⟩
  · rw [hasFiniteConstants_iff, exists_encode_iff]
  · rw [hasFiniteConstants_iff, exists_encodeIndented_iff]
  · intro infinite
    rw [hasFiniteConstants_iff] at infinite
    obtain ⟨id, first⟩ := Option.ne_none_iff_exists'.mp infinite
    obtain ⟨before, value, after, entries, nonFinite, earlierFinite⟩ :=
      firstNonFinite?_eq_some first
    refine ⟨before, id, value, after, entries, nonFinite, earlierFinite, ?_, ?_⟩
    · simp only [encode, first]
    · simp only [encodeIndented, first]
  · intro text written
    exact ⟨program, decode_of_encode written, rfl, rfl, rfl⟩

end Program

end BlockStage

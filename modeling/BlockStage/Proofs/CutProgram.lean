import BlockStage.Proofs.CutReader
import BlockStage.Proofs.ProgramRoundTrip

/-!
# Stored programs that are cut off

The readers of nodes and programs starve on what is left of a document that is cut off.  So no
beginning of a stored program is a stored program, and none is refused for anything but its end.
-/

namespace BlockStage

open Token (CutOff Stub)

/-! ### Nodes -/

open Reader (Falters Starves Stalling GoesOn rowTokens memberRow separator)

theorem Json.IsScalar.falters {document : Json} (scalar : document.IsScalar) (room : Nat) :
    Falters (Reader.value room) (fun _ => True) document.tokens := by
  intro cut cutOff
  cases document with
  | text content =>
      rcases cutOff.cons_cases with rfl | ⟨stub, isStub, rfl⟩ | ⟨later, rfl, behind⟩
      · cases room <;> exact Or.inl rfl
      · cases isStub
        cases room <;> exact Or.inl rfl
      · cases behind
  | number value =>
      rcases cutOff.cons_cases with rfl | ⟨stub, isStub, rfl⟩ | ⟨later, rfl, behind⟩
      · cases room <;> exact Or.inl rfl
      · cases isStub with
        | count => cases room <;> exact Or.inr ⟨_, trivial, rfl⟩
        | real => cases room <;> exact Or.inr ⟨_, trivial, rfl⟩
        | broken => cases room <;> exact Or.inl rfl
      · cases behind
  | null => cases scalar
  | bool value => cases scalar
  | array items => cases scalar
  | object members => cases scalar

namespace Wire.NodeShape

variable {kind node : Type} {shape : NodeShape kind node} {room : Nat} {tag : kind}
  {word : String}

theorem starves_readTag (shape : NodeShape kind node) (word : String) :
    Starves shape.readTag [.text (.ok word)] :=
  fun cut cutOff => Reader.bind_of_error (Reader.starves_text word cut cutOff)

theorem memberStep_nil (state : Partial kind) :
    shape.memberStep room state [] = .error .premature := rfl

theorem falters_keywordStep (word : String) (first : Bool) (collected : List (String × Json)) :
    Falters (shape.memberStep room ⟨first, none, collected⟩) GoesOn
      (separator first ++ memberRow tagName [.text (.ok word)]) := by
  have entry : Falters (do return Sum.inl ⟨false, some (← shape.readTag), collected⟩)
      (GoesOn : Partial kind ⊕ (kind × List (String × Json)) → Prop) [.text (.ok word)] :=
    ((starves_readTag shape word).falters fun _ => True).andReturn fun tag _ =>
      ⟨⟨false, some tag, collected⟩, rfl⟩
  refine entry.behind_key first ?_
  simp

theorem falters_plainStep {name : String} {value : Json} (other : name ≠ tagName)
    (scalar : value.IsScalar) (first : Bool) (tag : Option kind)
    (collected : List (String × Json)) :
    Falters (shape.memberStep room ⟨first, tag, collected⟩) GoesOn
      (separator first ++ memberRow name value.tokens) := by
  have entry : Falters (do return Sum.inl ⟨false, tag, (name, ← Reader.value room) :: collected⟩)
      (GoesOn : Partial kind ⊕ (kind × List (String × Json)) → Prop) value.tokens :=
    (scalar.falters room).andReturn fun value _ => ⟨⟨false, tag, (name, value) :: collected⟩, rfl⟩
  refine entry.behind_key first ?_
  simp [other]

theorem stalling_members {tag : Option kind} {members plain : List (String × Json)} {last : kind}
    (gathers : Gathers shape room tag members last plain)
    (scalars : ∀ member ∈ members, member.2.IsScalar) (first : Bool)
    (collected : List (String × Json)) :
    Stalling (shape.memberStep room) ⟨first, tag, collected⟩
      (rowTokens .closeObject first
        (members.map fun member => memberRow member.1 member.2.tokens)) := by
  induction gathers generalizing first collected with
  | nil => exact Reader.stalling_close rfl rfl
  | keyword names later ih =>
      obtain ⟨-, others⟩ := List.forall_mem_cons.mp scalars
      rw [List.map_cons, Reader.rowTokens_cons]
      exact (ih others false collected).behind (falters_keywordStep _ first collected)
        (reads_keywordStep names room first collected) memberStep_nil
  | @plain name value tag last members plain other fits later ih =>
      obtain ⟨scalar, others⟩ := List.forall_mem_cons.mp scalars
      rw [List.map_cons, Reader.rowTokens_cons]
      exact (ih others false ((name, value) :: collected)).behind
        (falters_plainStep other scalar first tag collected)
        (reads_plainStep other fits first tag collected) memberStep_nil

theorem Writes.starves {contents : List (String × Json)} {result : node}
    (writes : shape.Writes tag word contents result) (named : shape.IsNamed) :
    Starves (shape.read (room + 1))
      (Json.object ((tagName, .text word) :: contents)).tokens := by
  have gathers : Gathers shape room none ((tagName, .text word) :: contents) tag contents :=
    .keyword writes.names (gathers_of_untagged (writes.untagged named) fun member isMember =>
      (writes.scalars member isMember).fits room)
  have scalars : ∀ member ∈ (tagName, Json.text word) :: contents, member.2.IsScalar :=
    List.forall_mem_cons.mpr ⟨trivial, writes.scalars⟩
  have starves := (stalling_members gathers scalars true []).starves
  rw [Json.tokens, Json.memberTokens_eq]
  intro cut cutOff
  rcases cutOff.punctuation_cases rfl with rfl | ⟨later, rfl, behind⟩
  · rfl
  · rw [NodeShape.read, readMembers_eq, Reader.bind_of_error (starves later behind)]

end Wire.NodeShape

/-! ### Programs -/

namespace Program

variable {α : Type}

theorem starves_tableJson {toJson : α → Json} {reader : Reader α} {table : Arena α}
    (each : ∀ entry ∈ table.entries, Reader.Reads reader (toJson entry.2).tokens entry.2)
    (starves : ∀ entry ∈ table.entries, Starves reader (toJson entry.2).tokens) :
    Starves (readTable reader) (tableJson toJson table).tokens := by
  have entries := @Reader.starves_dictionary _ reader (fun _ => True)
    (table.entries.map fun entry => (entry.1, (toJson entry.2).tokens, entry.2)) (by
      intro entry isMember
      obtain ⟨stored, isStored, rfl⟩ := List.mem_map.mp isMember
      exact each stored isStored) (by
      intro entry isMember
      obtain ⟨stored, isStored, rfl⟩ := List.mem_map.mp isMember
      exact (starves stored isStored).falters _)
  have table := entries.map Arena.ofEntries
  rw [List.map_map] at table
  rw [tableJson, Json.tokens, Json.memberTokens_eq, List.map_map]
  exact table

theorem starves_list (items : List StatementId) :
    Starves (Reader.array Reader.text) (Json.array (items.map .text)).tokens := by
  have starves := @Reader.starves_array _ Reader.text (fun _ => True)
    (items.map fun item => ([Token.text (.ok item)], item)) (by
      intro entry isMember
      obtain ⟨item, -, rfl⟩ := List.mem_map.mp isMember
      exact ⟨⟨_, _, rfl, by simp, by simp⟩, Reader.reads_text item⟩) (by
      intro entry isMember
      obtain ⟨item, -, rfl⟩ := List.mem_map.mp isMember
      exact (Reader.starves_text item).falters _)
  rw [Json.tokens, Json.itemTokens_eq]
  simpa only [List.map_map, Function.comp_def, Json.tokens] using starves

/-- The parts of a program falter on the members of its document. -/
theorem eachFalters_parts {program : Program}
    (finite : ∀ entry ∈ program.expressions.entries, entry.2.isNonFiniteConstant = false) :
    Reader.EachFalters parts
      [("stats", (tableJson Statement.toJson program.statements).tokens),
        ("exprs", (tableJson Expression.toJson program.expressions).tokens),
        ("statLists",
          (tableJson (fun items => .array (items.map .text)) program.lists).tokens),
        ("statCount", (Json.number (.count program.statementCount)).tokens),
        ("exprCount", (Json.number (.count program.expressionCount)).tokens),
        ("statListCount", (Json.number (.count program.listCount)).tokens)] := by
  have statements : Starves (readTable (Statement.shape.read (Reader.maxRoom - 2)))
      (tableJson Statement.toJson program.statements).tokens := by
    refine starves_tableJson (fun entry _ => Statement.reads_toJson entry.2 _) fun entry _ => ?_
    rw [Statement.toJson_eq]
    exact entry.2.writes.starves Statement.isNamed_shape
  have expressions : Starves (readTable (Expression.shape.read (Reader.maxRoom - 2)))
      (tableJson Expression.toJson program.expressions).tokens := by
    refine starves_tableJson
      (fun entry isEntry => Expression.reads_toJson (finite entry isEntry) _)
      fun entry isEntry => ?_
    rw [Expression.toJson_eq]
    exact (Expression.writes (finite entry isEntry)).starves Expression.isNamed_shape
  have lists : Starves (readTable (Reader.array Reader.text))
      (tableJson (fun items => .array (items.map .text)) program.lists).tokens :=
    starves_tableJson (fun entry _ => reads_list entry.2) fun entry _ => starves_list entry.2
  have table {β : Type} {reader : Reader β} {tokens : List Token} (starves : Starves reader tokens)
      (put : β → Parts) : Falters (do return put (← reader)) (fun _ => True) tokens :=
    (starves.falters fun _ => True).andReturn fun _ _ => trivial
  have counter (count : UInt64) (put : UInt64 → Parts) :
      Falters (do return put (← Reader.count)) (fun _ => True)
        (Json.number (.count count)).tokens :=
    (Reader.falters_count count).andReturn fun _ _ => trivial
  simp only [Reader.EachFalters, List.forall_mem_cons, List.not_mem_nil, false_implies,
    implies_true, and_true]
  exact ⟨⟨_, rfl, fun _ => table statements _⟩, ⟨_, rfl, fun _ => table expressions _⟩,
    ⟨_, rfl, fun _ => table lists _⟩, ⟨_, rfl, fun _ => counter _ _⟩,
    ⟨_, rfl, fun _ => counter _ _⟩, ⟨_, rfl, fun _ => counter _ _⟩⟩

theorem starves_toJson {program : Program}
    (finite : ∀ entry ∈ program.expressions.entries, entry.2.isNonFiniteConstant = false) :
    Starves (Reader.record parts {} ofParts?) program.toJson.tokens := by
  have starves := @Reader.starves_record _ _ _ _ _ ofParts? _ (fills_parts finite)
    (eachFalters_parts finite)
  rw [toJson, Json.tokens, Json.memberTokens_eq]
  exact starves

theorem decode_of_cut {program : Program}
    (finite : ∀ entry ∈ program.expressions.entries, entry.2.isNonFiniteConstant = false)
    {text cut : String} (layout : Token.Layout Token.Stored program.toJson.tokens text.toList)
    (isPrefix : cut.toList <+: text.toList) (proper : cut ≠ text) :
    decode cut = .error .premature := by
  have differs : cut.toList ≠ text.toList := fun same => proper (String.toList_injective same)
  have cutOff := layout.cutOff_tokenize program.toJson.separated_tokens isPrefix differs
  rw [decode, Reader.run, starves_toJson finite _ cutOff]

/-- No beginning of a stored program is read as a program: whichever text it is stored as and
wherever this text is cut off, what is left is refused because it ends too early. -/
theorem cut_off_text_ends_too_early (program : Program) (finite : program.HasFiniteConstants) :
    ∃ compact indented, program.encode = .ok compact ∧ program.encodeIndented = .ok indented ∧
      ∀ text cut : String, text = compact ∨ text = indented → cut.toList <+: text.toList →
        cut ≠ text → decode cut = .error .premature := by
  have none := (hasFiniteConstants_iff program).mp finite
  have entriesFinite := (firstNonFinite?_eq_none_iff program).mp none
  refine ⟨program.toJson.toText, program.toJson.toIndentedText, ?_, ?_, ?_⟩
  · simp only [encode, none]
  · simp only [encodeIndented, none]
  · rintro text cut (rfl | rfl) isPrefix proper
    · refine decode_of_cut entriesFinite ?_ isPrefix proper
      rw [Json.toText, String.toList_ofList]
      exact Json.layout_compact _ program.isFinite_toJson
    · refine decode_of_cut entriesFinite ?_ isPrefix proper
      rw [Json.toIndentedText, String.toList_ofList]
      exact Json.layout_indented 0 _ program.isFinite_toJson

/-- A program with a constant that is stored with an exponent and a name that is stored with an
escape. -/
def tinyConstant : Program :=
  (empty.setExpression "expr-0" (some (.constant (-2.5e-7)))).setExpression "expr-1"
    (some (.read "up\ndown"))

/-- The text of the program up to the sign of the exponent. -/
def tinyConstantCut : String :=
  "\x7b\"stats\":\x7b\x7d,\"exprs\":\x7b\"expr-0\":\x7b\"type\":\"const\",\"value\":-2.5e-"

def tinyConstantRest : String :=
  "7\x7d,\"expr-1\":\x7b\"type\":\"var\",\"name\":\"up\\ndown\"\x7d\x7d," ++
    "\"statLists\":\x7b\"entry\":[]\x7d,\"statCount\":0,\"exprCount\":0,\"statListCount\":0\x7d"

theorem encode_tinyConstant : tinyConstant.encode = .ok (tinyConstantCut ++ tinyConstantRest) := by
  decide +kernel

theorem tinyConstant_cut_off : tinyConstant.HasFiniteConstants ∧
    tinyConstant.encode = .ok (tinyConstantCut ++ tinyConstantRest) ∧
    decode tinyConstantCut = .error .premature := by
  have finite : tinyConstant.HasFiniteConstants := by
    rw [hasFiniteConstants_iff]
    decide +kernel
  refine ⟨finite, encode_tinyConstant, ?_⟩
  obtain ⟨compact, indented, stored, -, refused⟩ := cut_off_text_ends_too_early tinyConstant finite
  rw [encode_tinyConstant] at stored
  obtain rfl := Except.ok.inj stored
  refine refused _ tinyConstantCut (Or.inl rfl) ?_ ?_
  · simp
  · decide +kernel

end Program

end BlockStage

import BlockStage.Proofs.ReaderLaws
import BlockStage.Proofs.TerminalLines

/-!
# Snapshots as lines of JSON

A number off the number line is written as `null`, which is read back in one place only: as a
missing sleep.  So a snapshot is read back from its text exactly if its variables are finite, and
then it is the same but for a sleep that is not.  Whatever the names in a snapshot are, its text
has no control character, so it is one line, and a terminal writes as many lines as it renders
snapshots.
-/

namespace BlockStage

namespace Reader

variable {α σ : Type}

/-! ### Refusals -/

/-- A reader refuses a row of tokens, whatever follows them. -/
def Refuses (reader : Reader α) (tokens : List Token) (fault : Fault) : Prop :=
  ∀ rest : List Token, reader (tokens ++ rest) = .error fault

theorem Refuses.bind {β : Type} {reader : Reader α} {next : α → Reader β} {tokens : List Token}
    {fault : Fault} (refuses : Refuses reader tokens fault) :
    Refuses (reader >>= next) tokens fault :=
  fun rest => bind_of_error (refuses rest)

/-- The items in front of one that is refused are read. -/
theorem stalls_items {item : Reader α} {fault : Fault} (before : List (List Token × α))
    (each : ∀ entry ∈ before, StartsItem entry.1 ∧ Reads item entry.1 entry.2)
    {entry : List Token} (starts : StartsItem entry) (refuses : Refuses item entry fault)
    (after : List (List Token)) (collected : List α) (rest : List Token) :
    Stalls (itemStep item) fault collected
      (rowTokens .closeArray collected.isEmpty (before.map Prod.fst ++ entry :: after) ++
        rest) := by
  induction before generalizing collected with
  | nil =>
      rw [List.map_nil, List.nil_append, rowTokens_cons, List.append_assoc]
      refine .now ?_
      rw [itemStep, bind_of_ok (hasItem_of_startsItem starts collected.isEmpty _)]
      exact refuses.bind _
  | cons first before ih =>
      obtain ⟨⟨firstStarts, reads⟩, others⟩ := List.forall_mem_cons.mp each
      rw [List.map_cons, List.cons_append, rowTokens_cons, List.append_assoc]
      exact (ih others (first.2 :: collected)).behind (reads_itemStep firstStarts reads collected)
        (firstStarts.ne_nil _)

theorem refuses_array {item : Reader α} {fault : Fault} (before : List (List Token × α))
    (each : ∀ entry ∈ before, StartsItem entry.1 ∧ Reads item entry.1 entry.2)
    {entry : List Token} (starts : StartsItem entry) (refuses : Refuses item entry fault)
    (after : List (List Token)) :
    Refuses (array item)
      (.openArray :: rowTokens .closeArray true (before.map Prod.fst ++ entry :: after)) fault :=
  fun rest => loop_of_stalls (stalls_items before each starts refuses after [] rest)

/-- The members in front of one that is refused fill their parts. -/
theorem stalls_record {fields : List (Field σ)} {field : Field σ} {record next : σ}
    {name : String} {tokens : List Token} {fault : Fault}
    {before : List (String × List Token)} (fills : Fills fields record before next)
    (known : (fields.find? fun field => field.name == name) = some field)
    (isUnset : field.isSet next = false) (refuses : Refuses (field.read next) tokens fault)
    (after : List (String × List Token)) (first : Bool) (rest : List Token) :
    Stalls (recordStep fields) fault (first, record)
      (rowTokens .closeObject first
        ((before ++ (name, tokens) :: after).map fun entry => memberRow entry.1 entry.2) ++
          rest) := by
  induction fills generalizing first with
  | nil =>
      rw [List.nil_append, List.map_cons, rowTokens_cons, List.append_assoc, List.append_assoc,
        memberRow, List.cons_append, List.cons_append]
      refine .now ?_
      rw [recordStep, bind_of_ok (nextKey_of_member first name _)]
      simp only [known, isUnset, Bool.false_eq_true, if_false]
      rw [bind_of_ok rfl]
      exact refuses.bind _
  | cons isKnown wasUnset reads later ih =>
      rw [List.cons_append, List.map_cons, rowTokens_cons, List.append_assoc]
      exact (ih isUnset refuses false).behind (reads_recordStep isKnown wasUnset reads first)
        (memberRow_ne_nil _ _ _)
  | passed unknown reads later ih =>
      rw [List.cons_append, List.map_cons, rowTokens_cons, List.append_assoc]
      exact (ih isUnset refuses false).behind (reads_recordStep_unknown unknown reads first _)
        (memberRow_ne_nil _ _ _)

theorem refuses_record {ρ : Type} {fields : List (Field σ)} {field : Field σ} {blank next : σ}
    {finish : σ → Option ρ} {name : String} {tokens : List Token} {fault : Fault}
    {before : List (String × List Token)} (fills : Fills fields blank before next)
    (known : (fields.find? fun field => field.name == name) = some field)
    (isUnset : field.isSet next = false) (refuses : Refuses (field.read next) tokens fault)
    (after : List (String × List Token)) :
    Refuses (record fields blank finish)
      (.openObject :: rowTokens .closeObject true
        ((before ++ (name, tokens) :: after).map fun entry => memberRow entry.1 entry.2))
      fault := by
  intro rest
  have refused := loop_of_stalls (stalls_record fills known isUnset refuses after true rest)
  rw [← recordMembers_eq] at refused
  exact bind_of_error refused

theorem run_of_refuses {reader : Reader α} {source : String} {tokens : List Token} {fault : Fault}
    (cut : Token.tokenize source.toList = tokens) (refuses : Refuses reader tokens fault) :
    run reader source = .error fault := by
  have refused := refuses []
  rw [List.append_nil] at refused
  rw [run, cut, refused]

end Reader

/-! ### Reading snapshots -/

namespace Json

theorem ofFloat_of_finite {value : Float} (finite : value.isFinite = true) :
    ofFloat value = .number (.real value) := if_pos finite

theorem ofFloat_of_not_finite {value : Float} (infinite : value.isFinite = false) :
    ofFloat value = .null := by
  simp [ofFloat, infinite]

end Json

namespace Snapshot

open Reader (Reads Refuses Fills memberRow rowTokens)

/-- All variables of a snapshot are finite, the special ones too. -/
structure HasFiniteValues (snapshot : Snapshot) : Prop where
  values : ∀ pair ∈ snapshot.values, pair.2.isFinite = true
  x : snapshot.special.x.isFinite = true
  y : snapshot.special.y.isFinite = true
  angle : snapshot.special.angle.isFinite = true

def pairJson (pair : String × Float) : Json := .array [.text pair.1, .ofFloat pair.2]

theorem reads_pair {pair : String × Float} (finite : pair.2.isFinite = true) :
    Reads readPair (pairJson pair).tokens pair := by
  rw [pairJson, Json.ofFloat_of_finite finite]
  exact fun _ => rfl

theorem refuses_pair {pair : String × Float} (infinite : pair.2.isFinite = false) :
    Refuses readPair (pairJson pair).tokens .mismatched := by
  rw [pairJson, Json.ofFloat_of_not_finite infinite]
  exact fun _ => rfl

theorem reads_values {values : List (String × Float)}
    (finite : ∀ pair ∈ values, pair.2.isFinite = true) :
    Reads (Reader.array readPair) (Json.array (values.map pairJson)).tokens values := by
  have reads := Reader.reads_array (values.map fun pair => ((pairJson pair).tokens, pair)) (by
    simp only [List.forall_mem_map]
    exact fun pair isPair => ⟨Json.startsItem_tokens _, reads_pair (finite pair isPair)⟩)
  simp only [List.map_map, Function.comp_def, List.map_id_fun', id] at reads
  rw [Json.tokens, Json.itemTokens_eq, List.map_map]
  exact reads

theorem refuses_values {values : List (String × Float)} {pair : String × Float}
    (isPair : pair ∈ values) (infinite : pair.2.isFinite = false) :
    Refuses (Reader.array readPair) (Json.array (values.map pairJson)).tokens .mismatched := by
  -- the value given may stand behind another one that is refused before it
  obtain ⟨first, found⟩ : ∃ first, values.find? (fun pair => !pair.2.isFinite) = some first :=
    Option.isSome_iff_exists.mp (List.find?_isSome.mpr ⟨pair, isPair, by simp [infinite]⟩)
  obtain ⟨isFirst, before, after, rfl, earlier⟩ := List.find?_eq_some_iff_append.mp found
  have refuses := Reader.refuses_array (before.map fun pair => ((pairJson pair).tokens, pair)) (by
    simp only [List.forall_mem_map]
    exact fun pair isPair =>
      ⟨Json.startsItem_tokens _, reads_pair (by simpa using earlier pair isPair)⟩)
    (Json.startsItem_tokens _) (refuses_pair (by simpa using isFirst))
    (after.map fun pair => (pairJson pair).tokens)
  rw [List.map_map] at refuses
  rw [Json.tokens, Json.itemTokens_eq, List.map_map, List.map_append, List.map_cons]
  exact refuses

theorem reads_real {value : Float} (finite : value.isFinite = true) :
    Reads Reader.real (Json.ofFloat value).tokens value := by
  rw [Json.ofFloat_of_finite finite]
  exact fun _ => rfl

theorem refuses_real {value : Float} (infinite : value.isFinite = false) :
    Refuses Reader.real (Json.ofFloat value).tokens .mismatched := by
  rw [Json.ofFloat_of_not_finite infinite]
  exact fun _ => rfl

/-- A sleep off the number line is read as none. -/
theorem reads_optionalReal (value : Float) :
    Reads Reader.optionalReal (Json.ofFloat value).tokens ((some value).filter Float.isFinite) := by
  cases finite : value.isFinite with
  | true =>
      rw [Json.ofFloat_of_finite finite, Option.filter_some, if_pos finite]
      exact fun _ => rfl
  | false =>
      rw [Json.ofFloat_of_not_finite finite, Option.filter_some, finite]
      exact fun _ => rfl

/-- A part of the special variables. -/
def specialField (name : String) (isSet : SpecialParts → Bool)
    (put : Float → SpecialParts → SpecialParts) : Reader.Field SpecialParts where
  name := name
  isSet := isSet
  read := fun read => do return put (← Reader.real) read

/-- The parts of the special variables in their order. -/
def specialFields : List (Reader.Field SpecialParts) :=
  [specialField "x" (fun read => read.x.isSome) fun value read => { read with x := some value },
    specialField "y" (fun read => read.y.isSome) fun value read => { read with y := some value },
    specialField "angle" (fun read => read.angle.isSome)
      fun value read => { read with angle := some value }]

theorem readSpecial_eq :
    readSpecial = Reader.record specialFields {} fun read => do
      return { x := ← read.x, y := ← read.y, angle := ← read.angle } := rfl

/-- The members of the special variables with their tokens. -/
def specialEntries (special : Special) : List (String × List Token) :=
  [("x", (Json.ofFloat special.x).tokens), ("y", (Json.ofFloat special.y).tokens),
    ("angle", (Json.ofFloat special.angle).tokens)]

theorem tokens_specialJson (special : Special) :
    (specialJson special).tokens = .openObject :: rowTokens .closeObject true
      ((specialEntries special).map fun entry => memberRow entry.1 entry.2) := by
  rw [specialJson, Json.tokens, Json.memberTokens_eq]
  rfl

theorem reads_special {special : Special} (x : special.x.isFinite = true)
    (y : special.y.isFinite = true) (angle : special.angle.isFinite = true) :
    Reads readSpecial (specialJson special).tokens special := by
  have fills : Fills specialFields {} (specialEntries special)
      ⟨some special.x, some special.y, some special.angle⟩ :=
    .cons rfl rfl (reads_real x).andReturn
      (.cons rfl rfl (reads_real y).andReturn (.cons rfl rfl (reads_real angle).andReturn .nil))
  rw [readSpecial_eq, tokens_specialJson]
  exact Reader.reads_record fills rfl

theorem refuses_special {special : Special} (infinite : ¬ (special.x.isFinite = true ∧
      special.y.isFinite = true ∧ special.angle.isFinite = true)) :
    Refuses readSpecial (specialJson special).tokens .mismatched := by
  rw [readSpecial_eq, tokens_specialJson]
  -- the first one off the number line is refused, behind those that have been read
  have nothing : Fills specialFields {} [] {} := .nil
  cases x : special.x.isFinite with
  | false => exact Reader.refuses_record nothing rfl rfl (refuses_real x).bind _
  | true =>
      have first : Fills specialFields {} [("x", (Json.ofFloat special.x).tokens)]
          ⟨some special.x, none, none⟩ := .cons rfl rfl (reads_real x).andReturn .nil
      cases y : special.y.isFinite with
      | false => exact Reader.refuses_record first rfl rfl (refuses_real y).bind _
      | true =>
          have second : Fills specialFields {}
              [("x", (Json.ofFloat special.x).tokens), ("y", (Json.ofFloat special.y).tokens)]
              ⟨some special.x, some special.y, none⟩ :=
            .cons rfl rfl (reads_real x).andReturn (.cons rfl rfl (reads_real y).andReturn .nil)
          have angle : special.angle.isFinite = false := by simpa [x, y] using infinite
          exact Reader.refuses_record second rfl rfl (refuses_real angle).bind _

/-- The member of a sleep, if there is one. -/
def durationEntries (duration : Option Float) : List (String × List Token) :=
  duration.toList.map fun duration => ("duration", (Json.ofFloat duration).tokens)

def entries (snapshot : Snapshot) : List (String × List Token) :=
  [("currentStat", [.text (.ok snapshot.statement)]),
    ("variables", (Json.array (snapshot.values.map pairJson)).tokens),
    ("specialVariables", (specialJson snapshot.special).tokens)] ++
      durationEntries snapshot.duration

theorem tokens_toJson (snapshot : Snapshot) :
    snapshot.toJson.tokens = .openObject :: rowTokens .closeObject true
      (snapshot.entries.map fun entry => memberRow entry.1 entry.2) := by
  rw [toJson, Json.tokens, Json.memberTokens_eq, entries]
  cases snapshot.duration <;> rfl

theorem fills_duration (duration : Option Float) {record : Parts} (unset : record.duration = none) :
    Fills parts record (durationEntries duration)
      { record with duration := duration.map fun duration =>
        (some duration).filter Float.isFinite } := by
  cases duration with
  | none =>
      rw [Option.map_none, ← unset]
      exact .nil
  | some duration =>
      refine .cons rfl ?_ (reads_optionalReal duration).andReturn .nil
      change record.duration.isSome = false
      rw [unset, Option.isSome_none]

/-- The snapshot without a sleep off the number line. -/
def withFiniteSleep (snapshot : Snapshot) : Snapshot :=
  { snapshot with duration := snapshot.duration.filter Float.isFinite }

theorem reads_toJson {snapshot : Snapshot} (finite : snapshot.HasFiniteValues) :
    Reads (Reader.record parts {} ofParts?) snapshot.toJson.tokens snapshot.withFiniteSleep := by
  have fills : Fills parts {} snapshot.entries
      ⟨some snapshot.statement, some snapshot.values, some snapshot.special,
        snapshot.duration.map fun duration => (some duration).filter Float.isFinite⟩ :=
    .cons rfl rfl (Reader.reads_text snapshot.statement).andReturn
      (.cons rfl rfl (reads_values finite.values).andReturn
        (.cons rfl rfl (reads_special finite.x finite.y finite.angle).andReturn
          (fills_duration snapshot.duration rfl)))
  rw [tokens_toJson]
  refine Reader.reads_record fills ?_
  cases sleep : snapshot.duration <;> simp [ofParts?, withFiniteSleep, sleep]

/-- The values are read before the special variables, and both are refused in one way. -/
theorem refuses_toJson {snapshot : Snapshot} (infinite : ¬ snapshot.HasFiniteValues) :
    Refuses (Reader.record parts {} ofParts?) snapshot.toJson.tokens .mismatched := by
  rw [tokens_toJson]
  by_cases finite : ∀ pair ∈ snapshot.values, pair.2.isFinite = true
  · have fills : Fills parts {}
        [("currentStat", [.text (.ok snapshot.statement)]),
          ("variables", (Json.array (snapshot.values.map pairJson)).tokens)]
        { statement := some snapshot.statement, values := some snapshot.values } :=
      .cons rfl rfl (Reader.reads_text snapshot.statement).andReturn
        (.cons rfl rfl (reads_values finite).andReturn .nil)
    have special : ¬ (snapshot.special.x.isFinite = true ∧ snapshot.special.y.isFinite = true ∧
        snapshot.special.angle.isFinite = true) :=
      fun ⟨x, y, angle⟩ => infinite ⟨finite, x, y, angle⟩
    exact Reader.refuses_record fills rfl rfl (refuses_special special).bind _
  · obtain ⟨pair, isPair, offLine⟩ : ∃ pair ∈ snapshot.values, pair.2.isFinite = false := by
      simpa using finite
    have fills : Fills parts {} [("currentStat", [.text (.ok snapshot.statement)])]
        { statement := some snapshot.statement } :=
      .cons rfl rfl (Reader.reads_text snapshot.statement).andReturn .nil
    exact Reader.refuses_record fills rfl rfl (refuses_values isPair offLine).bind _

end Snapshot

/-! ### Texts on one line -/

namespace Json

/-- No character stands before the blank, as line breaks and other control characters do. -/
def IsPrintable (characters : List Char) : Prop :=
  ∀ character ∈ characters, 0x20 ≤ character.toNat

@[simp] theorem isPrintable_nil : IsPrintable [] := List.forall_mem_nil _

@[simp] theorem isPrintable_cons {character : Char} {rest : List Char} :
    IsPrintable (character :: rest) ↔ 0x20 ≤ character.toNat ∧ IsPrintable rest :=
  List.forall_mem_cons

@[simp] theorem isPrintable_append {first second : List Char} :
    IsPrintable (first ++ second) ↔ IsPrintable first ∧ IsPrintable second :=
  List.forall_mem_append

theorem isPrintable_of_isDigit {digits : List Char} (isDigits : ∀ digit ∈ digits, digit.isDigit) :
    IsPrintable digits := by
  intro digit isMember
  have isDigit := isDigits digit isMember
  simp only [Char.isDigit, Bool.and_eq_true, decide_eq_true_eq] at isDigit
  exact Nat.le_trans (by decide) (UInt32.le_iff_toNat_le.mp isDigit.1)

theorem isPrintable_escape (character : Char) : IsPrintable (escape character) := by
  have hexDigits : ∀ value < 16, 0x20 ≤ (Nat.digitChar value).toNat := by decide
  unfold escape
  by_cases printable : 0x20 ≤ character.toNat
  · split_ifs <;> simp [printable]
  · have high := hexDigits (character.toNat / 16) (by omega)
    have low := hexDigits (character.toNat % 16) (by omega)
    split_ifs <;> simp [high, low]

theorem isPrintable_quote (content : String) : IsPrintable (quote content) := by
  have each : IsPrintable (content.toList.flatMap escape) := by
    intro written isWritten
    obtain ⟨character, -, isEscape⟩ := List.mem_flatMap.mp isWritten
    exact isPrintable_escape character written isEscape
  simp [quote, each]

end Json

open Json (IsPrintable)

theorem PowerOfTen.IsSpelled.isPrintable {power : PowerOfTen} (spelled : power.IsSpelled) :
    IsPrintable power.text := by
  have digits := Json.isPrintable_of_isDigit spelled.isDigits
  rcases spelled.mark with mark | mark <;> rcases spelled.sign with sign | sign | sign <;>
    simp [text, mark, sign, digits]

theorem Figures.IsSpelled.isPrintable {figures : Figures} (spelled : figures.IsSpelled) :
    IsPrintable figures.text := by
  have whole := Json.isPrintable_of_isDigit spelled.whole.isDigits
  have fraction : IsPrintable figures.fractionText := by
    unfold fractionText
    split
    · exact Json.isPrintable_nil
    · rename_i digits isFraction
      simp [Json.isPrintable_of_isDigit (spelled.fraction digits isFraction).2]
  have power : IsPrintable figures.powerText := by
    unfold powerText
    split
    · exact Json.isPrintable_nil
    · rename_i power isPower
      exact (spelled.power power isPower).isPrintable
  unfold text magnitude
  split <;> simp [whole, fraction, power]

namespace Json

theorem isPrintable_writeNumeral {numeral : Numeral} (finite : numeral.IsFinite) :
    IsPrintable (writeNumeral numeral) := by
  cases numeral with
  | count value => exact isPrintable_of_isDigit (Token.isWhole_toDigits value.toNat).isDigits
  | real value =>
      obtain ⟨figures, spelled, -, text⟩ := Figures.exists_of_finite finite
      rw [← text]
      exact spelled.isPrintable

mutual

theorem isPrintable_compact : (document : Json) → document.IsFinite → IsPrintable document.compact
  | .null, _ => by simp [compact]
  | .bool true, _ => by simp [compact]
  | .bool false, _ => by simp [compact]
  | .number _, finite => isPrintable_writeNumeral finite
  | .text content, _ => isPrintable_quote content
  | .array items, finite => by simp [compact, isPrintable_compactItems items finite]
  | .object members, finite => by simp [compact, isPrintable_compactMembers members finite]

theorem isPrintable_compactItems : (items : List Json) → AreFinite items →
    IsPrintable (compactItems items)
  | [], _ => by simp [compactItems]
  | [item], finite => by simp [compactItems, isPrintable_compact item finite.1]
  | item :: next :: rest, finite => by
      simp [compactItems, isPrintable_compact item finite.1,
        isPrintable_compactItems (next :: rest) finite.2]

theorem isPrintable_compactMembers : (members : List (String × Json)) → MembersFinite members →
    IsPrintable (compactMembers members)
  | [], _ => by simp [compactMembers]
  | [(key, value)], finite => by
      simp [compactMembers, isPrintable_quote key, isPrintable_compact value finite.1]
  | (key, value) :: next :: rest, finite => by
      simp [compactMembers, isPrintable_quote key, isPrintable_compact value finite.1,
        isPrintable_compactMembers (next :: rest) finite.2]

end

end Json

namespace Snapshot

theorem isFinite_toJson (snapshot : Snapshot) : snapshot.toJson.IsFinite := by
  have pair (pair : String × Float) : (pairJson pair).IsFinite :=
    ⟨trivial, Json.isFinite_ofFloat pair.2, trivial⟩
  have values : (Json.array (snapshot.values.map pairJson)).IsFinite :=
    Json.areFinite_of_forall (List.forall_mem_map.mpr fun entry _ => pair entry)
  have special : (specialJson snapshot.special).IsFinite :=
    ⟨Json.isFinite_ofFloat _, Json.isFinite_ofFloat _, Json.isFinite_ofFloat _, trivial⟩
  refine ⟨trivial, values, special, ?_⟩
  cases snapshot.duration with
  | none => trivial
  | some duration => exact ⟨Json.isFinite_ofFloat duration, trivial⟩

theorem parse_of_finite {snapshot : Snapshot} (finite : snapshot.HasFiniteValues) :
    parse snapshot.toJson.toText = .ok snapshot.withFiniteSleep :=
  Reader.run_of_reads (Json.tokenize_toText snapshot.isFinite_toJson) (reads_toJson finite)

theorem parse_of_not_finite {snapshot : Snapshot} (infinite : ¬ snapshot.HasFiniteValues) :
    parse snapshot.toJson.toText = .error .mismatched :=
  Reader.run_of_refuses (Json.tokenize_toText snapshot.isFinite_toJson) (refuses_toJson infinite)

theorem isPrintable_toText (snapshot : Snapshot) :
    IsPrintable snapshot.toJson.toText.toList := by
  rw [Json.toText, String.toList_ofList]
  exact Json.isPrintable_compact _ snapshot.isFinite_toJson

theorem lineBreaks_jsonLine (snapshot : Snapshot) :
    Terminal.lineBreaks (SnapshotFormat.json.line snapshot) = 0 := by
  refine List.count_eq_zero.mpr fun isBroken => ?_
  have notControl := snapshot.isPrintable_toText '\n' isBroken
  exact absurd notControl (by decide)

/-- The text of a snapshot is read back exactly if its variables are finite, as the same snapshot
but for a sleep off the number line, and is refused for its values otherwise.  It has no control
character, whatever the names in the snapshot are.  So a drive onto an output that is never closed
writes one line of JSON per rendered snapshot. -/
theorem json_line_is_read_back :
    (∀ snapshot : Snapshot,
      (∀ back, parse snapshot.toJson.toText = .ok back ↔
        snapshot.HasFiniteValues ∧ back = snapshot.withFiniteSleep) ∧
      (¬ snapshot.HasFiniteValues → parse snapshot.toJson.toText = .error .mismatched) ∧
      ∀ character ∈ snapshot.toJson.toText.toList, 0x20 ≤ character.toNat) ∧
    ∀ {π : Type} (program : Program) (settings : DriveSettings) (wait : Span → π → Bool × π)
      (pacer : π) (turns : Nat) (outcome : Outcome) (final : Terminal.Show Terminal.Paper π),
      Drive.within (Terminal.host program .json ⟨Terminal.Paper.write, wait⟩) settings turns 0
          (Terminal.fresh {} pacer) = some (outcome, final) →
        ∃ snapshots : List Snapshot, snapshots.length = outcome.rendered ∧
          final.output.written = Terminal.linesText .json snapshots ∧
          Terminal.lineBreaks final.output.written = outcome.rendered := by
  constructor
  · intro snapshot
    refine ⟨fun back => ⟨fun parsed => ?_, ?_⟩, parse_of_not_finite, snapshot.isPrintable_toText⟩
    · by_cases finite : snapshot.HasFiniteValues
      · rw [parse_of_finite finite] at parsed
        exact ⟨finite, (Except.ok.inj parsed).symm⟩
      · rw [parse_of_not_finite finite] at parsed
        cases parsed
    · rintro ⟨finite, rfl⟩
      exact parse_of_finite finite
  · intro π program settings wait pacer turns outcome final returned
    have started : Terminal.HasShown ⟨Terminal.Paper.write, wait⟩ .json program {} 0
        (Terminal.fresh {} pacer) := ⟨rfl, rfl⟩
    obtain ⟨length_eq, output_eq⟩ := started.within rfl returned
    have written : final.output.written =
        Terminal.linesText .json ((Run.start false).shown program outcome.rendered) := by
      rw [output_eq, Terminal.outputBehindLines_paper]
      simp
    refine ⟨_, length_eq, written, ?_⟩
    rw [written, Terminal.lineBreaks_linesText fun snapshot _ => snapshot.lineBreaks_jsonLine,
      length_eq]

/-- A snapshot with line breaks in its names and an endless sleep. -/
def brokenNames (value : Float) : Snapshot where
  statement := "a\nb"
  values := [("c\nd", value)]
  special := ⟨0, 0, 0⟩
  duration := some (1 / 0)

/-- Sets a variable with a line break in its name. -/
def brokenAssignment : Program where
  statements := Arena.ofEntries [("0", .assign "c\nd" "0")]
  expressions := Arena.ofEntries [("0", .constant 0.5)]
  lists := Arena.ofEntries [(entryList, ["0"])]
  statementCount := 1
  expressionCount := 1
  listCount := 1

/-- With a finite value the snapshot is read back without its sleep, and with an infinite one it is
refused.  The line breaks in its names are none of its text, nor of the output of a drive. -/
theorem brokenNames_read_back :
    ((brokenNames 0.5).HasFiniteValues ∧
      parse (brokenNames 0.5).toJson.toText = .ok { brokenNames 0.5 with duration := none }) ∧
    (¬ (brokenNames (1 / 0)).HasFiniteValues ∧
      parse (brokenNames (1 / 0)).toJson.toText = .error .mismatched) ∧
    ('\n' ∈ (brokenNames 0.5).line.toList ∧ '\n' ∉ (brokenNames 0.5).toJson.toText.toList) ∧
    ∃ final, Drive.within (Terminal.host brokenAssignment .json Terminal.paperDevices) {} 2 0
        (Terminal.fresh {} ()) = some (⟨.completed, 1⟩, final) ∧
      Terminal.lineBreaks final.output.written = 1 := by
  obtain ⟨reads, onePerSnapshot⟩ := json_line_is_read_back
  have half : (0.5 : Float).isFinite = true := by decide +kernel
  have zero : (0 : Float).isFinite = true := by decide +kernel
  have infinite : (1 / 0 : Float).isFinite = false := by decide +kernel
  have finite : (brokenNames 0.5).HasFiniteValues :=
    ⟨by simpa [brokenNames] using half, zero, zero, zero⟩
  have finiteSleep : (brokenNames 0.5).withFiniteSleep =
      { brokenNames 0.5 with duration := none } := by
    simp [withFiniteSleep, brokenNames, infinite]
  have offLine : ¬ (brokenNames (1 / 0)).HasFiniteValues := by
    intro finite
    have isFinite := finite.values ("c\nd", 1 / 0) (by simp [brokenNames])
    rw [infinite] at isFinite
    cases isFinite
  obtain ⟨readsBack, -, printable⟩ := reads (brokenNames 0.5)
  refine ⟨⟨finite, (readsBack _).mpr ⟨finite, finiteSleep.symm⟩⟩,
    ⟨offLine, (reads (brokenNames (1 / 0))).2.1 offLine⟩, ⟨?_, fun isBroken => ?_⟩, ?_⟩
  · simp [brokenNames, line]
  · exact absurd (printable _ isBroken) (by decide)
  · have outcome : (Drive.within (Terminal.host brokenAssignment .json Terminal.paperDevices) {} 2 0
        (Terminal.fresh {} ())).map Prod.fst = some ⟨.completed, 1⟩ := by
      decide +kernel
    obtain ⟨⟨outcome, final⟩, returned, rfl⟩ := Option.map_eq_some_iff.mp outcome
    obtain ⟨-, -, -, broken⟩ := onePerSnapshot brokenAssignment {} Terminal.paperDevices.wait () 2
      _ final returned
    exact ⟨final, returned, broken⟩

end Snapshot

end BlockStage

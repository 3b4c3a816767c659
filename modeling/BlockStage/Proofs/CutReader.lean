import BlockStage.Proofs.CutText
import BlockStage.Proofs.ReaderLaws

/-!
# Readers of a text that is cut off

A reader falters on a row of tokens if, wherever the row is cut off, it finds that the text ends
too early, or takes all that is left and gives some value; it starves if it never gives one.  A
number that is cut off may be another number, so readers of numbers only falter.  Whatever reads
on behind them finds nothing there, and so the readers of arrays, tables and records starve.
-/

namespace BlockStage

open Token (CutOff Stub)

namespace Token

theorem Stub.not_isPunctuation {token stub : Token} (isStub : Stub token stub) :
    token.isPunctuation = false := by
  cases isStub <;> rfl

namespace CutOff

variable {token : Token} {first second cut : List Token}

theorem cons_cases (cutOff : CutOff (token :: second) cut) :
    cut = [] ∨ (∃ stub, Stub token stub ∧ cut = [stub]) ∨
      ∃ later, cut = token :: later ∧ CutOff second later := by
  cases cutOff with
  | nothing => exact Or.inl rfl
  | stub isStub => exact Or.inr (Or.inl ⟨_, isStub, rfl⟩)
  | cons later => exact Or.inr (Or.inr ⟨_, rfl, later⟩)

theorem punctuation_cases (cutOff : CutOff (token :: second) cut)
    (punctuation : token.isPunctuation = true) :
    cut = [] ∨ ∃ later, cut = token :: later ∧ CutOff second later := by
  rcases cutOff.cons_cases with nothing | ⟨stub, isStub, -⟩ | later
  · exact Or.inl nothing
  · rw [isStub.not_isPunctuation] at punctuation
    cases punctuation
  · exact Or.inr later

/-- The cut falls into the first part of a row, or behind it. -/
theorem append_cases (cutOff : CutOff (first ++ second) cut) :
    CutOff first cut ∨ ∃ later, cut = first ++ later ∧ CutOff second later := by
  induction first generalizing cut with
  | nil => exact Or.inr ⟨cut, rfl, cutOff⟩
  | cons token first ih =>
      rcases cutOff.cons_cases with rfl | ⟨stub, isStub, rfl⟩ | ⟨later, rfl, behind⟩
      · exact Or.inl .nothing
      · exact Or.inl (.stub isStub)
      · rcases ih behind with inside | ⟨last, rfl, isLast⟩
        · exact Or.inl (.cons inside)
        · exact Or.inr ⟨last, rfl, isLast⟩

end CutOff

end Token

namespace Reader

variable {α β σ : Type}

/-- Wherever a row of tokens is cut off, the reader finds that it ends too early, or it takes all
that is left and gives a value of some sort. -/
def Falters (reader : Reader α) (Leaves : α → Prop) (tokens : List Token) : Prop :=
  ∀ cut, CutOff tokens cut →
    reader cut = .error .premature ∨ ∃ result, Leaves result ∧ reader cut = .ok (result, [])

/-- Wherever a row of tokens is cut off, the reader finds that it ends too early. -/
def Starves (reader : Reader α) (tokens : List Token) : Prop :=
  ∀ cut, CutOff tokens cut → reader cut = .error .premature

theorem Starves.falters {reader : Reader α} {tokens : List Token} (starves : Starves reader tokens)
    (Leaves : α → Prop) : Falters reader Leaves tokens :=
  fun cut cutOff => Or.inl (starves cut cutOff)

/-- A reader that falters over the first part of a row, behind which the next one finds nothing,
and reads it, behind which the next one falters. -/
theorem Falters.bind {reader : Reader α} {next : α → Reader β} {Leaves : α → Prop}
    {Leaves' : β → Prop} {first second : List Token} {result : α}
    (falters : Falters reader Leaves first) (reads : Reads reader first result)
    (dry : ∀ other, Leaves other → next other [] = .error .premature)
    (later : Falters (next result) Leaves' second) :
    Falters (reader >>= next) Leaves' (first ++ second) := by
  intro cut cutOff
  rcases cutOff.append_cases with inside | ⟨behind, rfl, isBehind⟩
  · rcases falters cut inside with premature | ⟨other, leaves, read⟩
    · exact Or.inl (bind_of_error premature)
    · rw [bind_of_ok read]
      exact Or.inl (dry other leaves)
  · rw [bind_of_ok (reads behind)]
    exact later behind isBehind

theorem Starves.bind {reader : Reader α} {next : α → Reader β} {Leaves : β → Prop}
    {first second : List Token} {result : α} (starves : Starves reader first)
    (reads : Reads reader first result) (later : Falters (next result) Leaves second) :
    Falters (reader >>= next) Leaves (first ++ second) :=
  (starves.falters fun _ => False).bind reads (by simp) later

theorem Falters.andReturn {reader : Reader α} {function : α → β} {Leaves : α → Prop}
    {Leaves' : β → Prop} {tokens : List Token} (falters : Falters reader Leaves tokens)
    (kept : ∀ result, Leaves result → Leaves' (function result)) :
    Falters (do return function (← reader)) Leaves' tokens := by
  intro cut cutOff
  rcases falters cut cutOff with premature | ⟨result, leaves, read⟩
  · exact Or.inl (bind_of_error premature)
  · rw [bind_of_ok read]
    exact Or.inr ⟨function result, kept result leaves, rfl⟩

theorem Starves.map {reader : Reader α} {tokens : List Token} (starves : Starves reader tokens)
    (function : α → β) : Starves (function <$> reader) tokens := by
  intro cut cutOff
  simp only [Functor.map, StateT.map, starves cut cutOff, Bind.bind, Except.bind]

/-! ### Scalars and punctuation -/

theorem starves_text (content : String) : Starves text [.text (.ok content)] := by
  intro cut cutOff
  rcases cutOff.cons_cases with rfl | ⟨stub, isStub, rfl⟩ | ⟨later, rfl, behind⟩
  · rfl
  · cases isStub
    rfl
  · cases behind

theorem falters_count (value : UInt64) :
    Falters count (fun _ => True) [.number (some (.count value))] := by
  intro cut cutOff
  rcases cutOff.cons_cases with rfl | ⟨stub, isStub, rfl⟩ | ⟨later, rfl, behind⟩
  · exact Or.inl rfl
  · cases isStub
    exact Or.inr ⟨_, trivial, rfl⟩
  · cases behind

theorem starves_colon : Starves colon [.colon] := by
  intro cut cutOff
  rcases cutOff.punctuation_cases rfl with rfl | ⟨later, rfl, behind⟩
  · rfl
  · cases behind

theorem starves_nextKey (first : Bool) (name : String) :
    Starves (nextKey first) (separator first ++ [.text (.ok name)]) := by
  have starves : Starves (some <$> key) [.text (.ok name)] := by
    refine Starves.map (fun cut cutOff => ?_) some
    rcases cutOff.cons_cases with rfl | ⟨stub, isStub, rfl⟩ | ⟨later, rfl, behind⟩
    · rfl
    · cases isStub
      rfl
    · cases behind
  intro cut cutOff
  cases first with
  | true =>
      rcases cutOff.cons_cases with rfl | ⟨stub, isStub, rfl⟩ | ⟨later, rfl, behind⟩
      · rfl
      · have read := starves [stub] (.stub isStub)
        cases isStub
        exact read
      · cases behind
  | false =>
      rcases cutOff.punctuation_cases rfl with rfl | ⟨later, rfl, behind⟩
      · rfl
      · exact starves later behind

theorem Falters.behind_key {next : Option String → Reader α} {value : Reader α}
    {Leaves : α → Prop} {name : String} {tokens : List Token}
    (falters : Falters value Leaves tokens) (first : Bool)
    (goesOn : next (some name) = (do colon; value)) :
    Falters (nextKey first >>= next) Leaves (separator first ++ memberRow name tokens) := by
  have row : separator first ++ memberRow name tokens =
      (separator first ++ [.text (.ok name)]) ++ ([.colon] ++ tokens) := by
    simp [memberRow]
  have reads : Reads (nextKey first) (separator first ++ [.text (.ok name)]) (some name) := by
    intro rest
    rw [List.append_assoc]
    exact nextKey_of_member first name rest
  rw [row]
  refine (starves_nextKey first name).bind reads ?_
  rw [goesOn]
  exact starves_colon.bind (fun _ => rfl) falters

/-! ### Loops -/

/-- Wherever a row of tokens is cut off, the loop comes to a turn that finds no more tokens. -/
def Stalling (step : σ → Reader (σ ⊕ α)) (state : σ) (tokens : List Token) : Prop :=
  ∀ cut, CutOff tokens cut → Stalls step .premature state cut

/-- The turn goes on. -/
def GoesOn (turn : σ ⊕ α) : Prop := ∃ next, turn = .inl next

variable {step : σ → Reader (σ ⊕ α)} {state next : σ}

theorem stalling_close {token : Token} (punctuation : token.isPunctuation = true)
    (dry : step state [] = .error .premature) : Stalling step state [token] := by
  intro cut cutOff
  rcases cutOff.punctuation_cases punctuation with rfl | ⟨later, rfl, behind⟩
  · exact .now dry
  · cases behind

/-- One turn falters over its entry, and the turns behind it come to an end of the text. -/
theorem Stalling.behind {entry rest : List Token} (later : Stalling step next rest)
    (falters : Falters (step state) GoesOn entry) (reads : Reads (step state) entry (.inl next))
    (dry : ∀ state, step state [] = .error .premature) :
    Stalling step state (entry ++ rest) := by
  intro cut cutOff
  rcases cutOff.append_cases with inside | ⟨behind, rfl, isBehind⟩
  · rcases falters cut inside with premature | ⟨turn, ⟨other, rfl⟩, read⟩
    · exact .now premature
    · refine .later read ?_ (.now (dry other))
      -- a turn that goes on has taken some token, since without tokens it would have failed
      cases cut with
      | nil =>
          rw [dry state] at read
          cases read
      | cons token cut => exact Nat.succ_pos _
  · by_cases nothing : entry = []
    · subst nothing
      have read := reads []
      rw [List.append_nil, dry state] at read
      cases read
    · exact (later behind isBehind).behind reads nothing

theorem Stalling.starves {tokens : List Token} (stalling : Stalling step state tokens) :
    Starves (loop step state) tokens :=
  fun cut cutOff => loop_of_stalls (stalling cut cutOff)

/-! ### Arrays, objects and records -/

theorem hasItem_of_cut {entry cut : List Token} (starts : StartsItem entry) (first : Bool)
    (cutOff : CutOff (separator first ++ entry) cut) :
    hasItem first cut = .error .premature ∨
      ∃ later, CutOff entry later ∧ hasItem first cut = .ok (true, later) := by
  obtain ⟨token, others, rfl, notClose, notComma⟩ := starts
  cases first with
  | true =>
      rcases cutOff.cons_cases with rfl | ⟨stub, isStub, rfl⟩ | ⟨later, rfl, behind⟩
      · exact Or.inl rfl
      · refine Or.inr ⟨[stub], .stub isStub, ?_⟩
        cases isStub <;> rfl
      · refine Or.inr ⟨token :: later, .cons behind, ?_⟩
        cases token <;> simp_all [hasItem]
  | false =>
      rcases cutOff.punctuation_cases rfl with rfl | ⟨later, rfl, behind⟩
      · exact Or.inl rfl
      rcases behind.cons_cases with rfl | ⟨stub, isStub, rfl⟩ | ⟨last, rfl, isLast⟩
      · exact Or.inl rfl
      · refine Or.inr ⟨[stub], .stub isStub, ?_⟩
        cases isStub <;> rfl
      · refine Or.inr ⟨token :: last, .cons isLast, ?_⟩
        cases token <;> simp_all [hasItem]

/-- What is opened by a bracket starves if its inside does. -/
theorem Starves.opened {reader inside : Reader α} {token : Token} {tokens : List Token}
    (starves : Starves inside tokens) (punctuation : token.isPunctuation = true)
    (dry : reader [] = .error .premature)
    (opens : ∀ rest, reader (token :: rest) = inside rest) : Starves reader (token :: tokens) := by
  intro cut cutOff
  rcases cutOff.punctuation_cases punctuation with rfl | ⟨later, rfl, behind⟩
  · exact dry
  · rw [opens, starves later behind]

theorem falters_itemStep {item : Reader α} {Leaves : α → Prop} {entry : List Token}
    (starts : StartsItem entry) (falters : Falters item Leaves entry) (collected : List α) :
    Falters (itemStep item collected) GoesOn (separator collected.isEmpty ++ entry) := by
  intro cut cutOff
  rcases hasItem_of_cut starts collected.isEmpty cutOff with premature | ⟨later, isLater, found⟩
  · exact Or.inl (bind_of_error premature)
  · have turn : Falters (do return Sum.inl ((← item) :: collected))
        (GoesOn : List α ⊕ List α → Prop) entry :=
      falters.andReturn fun result _ => ⟨result :: collected, rfl⟩
    rw [itemStep, bind_of_ok found]
    exact turn later isLater

theorem stalling_items {item : Reader α} {Leaves : α → Prop} (entries : List (List Token × α))
    (each : ∀ entry ∈ entries, StartsItem entry.1 ∧ Reads item entry.1 entry.2)
    (falters : ∀ entry ∈ entries, Falters item Leaves entry.1) (collected : List α) :
    Stalling (itemStep item) collected
      (rowTokens .closeArray collected.isEmpty (entries.map Prod.fst)) := by
  induction entries generalizing collected with
  | nil => exact stalling_close rfl rfl
  | cons entry entries ih =>
      obtain ⟨⟨starts, reads⟩, others⟩ := List.forall_mem_cons.mp each
      obtain ⟨falter, othersFalter⟩ := List.forall_mem_cons.mp falters
      rw [List.map_cons, rowTokens_cons]
      exact (ih others othersFalter (entry.2 :: collected)).behind
        (falters_itemStep starts falter collected) (reads_itemStep starts reads collected)
        fun _ => rfl

theorem starves_array {item : Reader α} {Leaves : α → Prop} (entries : List (List Token × α))
    (each : ∀ entry ∈ entries, StartsItem entry.1 ∧ Reads item entry.1 entry.2)
    (falters : ∀ entry ∈ entries, Falters item Leaves entry.1) :
    Starves (array item) (.openArray :: rowTokens .closeArray true (entries.map Prod.fst)) :=
  (stalling_items entries each falters []).starves.opened rfl rfl fun _ => rfl

theorem falters_memberStep {value : String → Reader α} {Leaves : α → Prop} {name : String}
    {tokens : List Token} (falters : Falters (value name) Leaves tokens)
    (collected : List (String × α)) :
    Falters (memberStep value collected) GoesOn
      (separator collected.isEmpty ++ memberRow name tokens) := by
  have entry : Falters (do return Sum.inl ((name, ← value name) :: collected))
      (GoesOn : List (String × α) ⊕ List (String × α) → Prop) tokens :=
    falters.andReturn fun result _ => ⟨(name, result) :: collected, rfl⟩
  exact entry.behind_key collected.isEmpty rfl

theorem stalling_members {value : String → Reader α} {Leaves : α → Prop}
    (entries : List (String × List Token × α))
    (each : ∀ entry ∈ entries, Reads (value entry.1) entry.2.1 entry.2.2)
    (falters : ∀ entry ∈ entries, Falters (value entry.1) Leaves entry.2.1)
    (collected : List (String × α)) :
    Stalling (memberStep value) collected
      (rowTokens .closeObject collected.isEmpty
        (entries.map fun entry => memberRow entry.1 entry.2.1)) := by
  induction entries generalizing collected with
  | nil => exact stalling_close rfl rfl
  | cons entry entries ih =>
      obtain ⟨reads, others⟩ := List.forall_mem_cons.mp each
      obtain ⟨falter, othersFalter⟩ := List.forall_mem_cons.mp falters
      rw [List.map_cons, rowTokens_cons]
      exact (ih others othersFalter ((entry.1, entry.2.2) :: collected)).behind
        (falters_memberStep falter collected) (reads_memberStep reads collected) fun _ => rfl

/-- An object with free keys starves if the reader of its values falters. -/
theorem starves_dictionary {value : Reader α} {Leaves : α → Prop}
    (entries : List (String × List Token × α))
    (each : ∀ entry ∈ entries, Reads value entry.2.1 entry.2.2)
    (falters : ∀ entry ∈ entries, Falters value Leaves entry.2.1) :
    Starves (dictionary value)
      (.openObject ::
        rowTokens .closeObject true (entries.map fun entry => memberRow entry.1 entry.2.1)) := by
  have stalling := @stalling_members _ (fun _ => value) Leaves entries each falters []
  exact stalling.starves.opened rfl rfl fun _ => rfl

theorem falters_recordStep {fields : List (Field σ)} {field : Field σ} {Leaves : σ → Prop}
    {name : String} {tokens : List Token} {record : σ}
    (known : (fields.find? fun field => field.name == name) = some field)
    (isUnset : field.isSet record = false) (falters : Falters (field.read record) Leaves tokens)
    (first : Bool) :
    Falters (recordStep fields (first, record)) GoesOn
      (separator first ++ memberRow name tokens) := by
  have entry : Falters (do return Sum.inl (false, ← field.read record))
      (GoesOn : (Bool × σ) ⊕ σ → Prop) tokens :=
    falters.andReturn fun result _ => ⟨(false, result), rfl⟩
  refine entry.behind_key first ?_
  simp only [known, isUnset, Bool.false_eq_true, if_false]

/-- Each member is a part of the record, whose reader falters on it whatever has been read. -/
def EachFalters (fields : List (Field σ)) (entries : List (String × List Token)) : Prop :=
  ∀ entry ∈ entries, ∃ field, (fields.find? fun field => field.name == entry.1) = some field ∧
    ∀ record, Falters (field.read record) (fun _ => True) entry.2

theorem stalling_record {fields : List (Field σ)} {record last : σ}
    {entries : List (String × List Token)} (fills : Fills fields record entries last)
    (falters : EachFalters fields entries) (first : Bool) :
    Stalling (recordStep fields) (first, record)
      (rowTokens .closeObject first (entries.map fun entry => memberRow entry.1 entry.2)) := by
  induction fills generalizing first with
  | nil => exact stalling_close rfl rfl
  | cons known isUnset reads later ih =>
      obtain ⟨⟨field, found, falter⟩, others⟩ := List.forall_mem_cons.mp falters
      obtain rfl := Option.some.inj (found.symm.trans known)
      rw [List.map_cons, rowTokens_cons]
      exact (ih others false).behind (falters_recordStep known isUnset (falter _) first)
        (reads_recordStep known isUnset reads first) fun _ => rfl
  | passed unknown reads later ih =>
      obtain ⟨⟨field, found, -⟩, -⟩ := List.forall_mem_cons.mp falters
      rw [unknown] at found
      cases found

theorem starves_record {ρ : Type} {fields : List (Field σ)} {blank last : σ}
    {finish : σ → Option ρ} {entries : List (String × List Token)}
    (fills : Fills fields blank entries last) (falters : EachFalters fields entries) :
    Starves (record fields blank finish)
      (.openObject ::
        rowTokens .closeObject true (entries.map fun entry => memberRow entry.1 entry.2)) := by
  have starves := (stalling_record fills falters true).starves
  rw [← recordMembers_eq] at starves
  intro cut cutOff
  rcases cutOff.punctuation_cases rfl with rfl | ⟨later, rfl, behind⟩
  · rfl
  · exact bind_of_error (starves later behind)

end Reader

end BlockStage

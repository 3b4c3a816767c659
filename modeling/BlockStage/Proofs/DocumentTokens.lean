import BlockStage.Proofs.TokenLayout

/-!
# Documents and their tokens

A document has one list of tokens, and both layouts of the document hold the
stored spellings of exactly these tokens: quoted texts with what must be escaped,
numbers with their shortest digits, and the blanks of the indented layout in
between.  The only condition is that every number of the document is finite,
since nothing else has a written form.
-/

namespace BlockStage

namespace Token

/-! ### Stored spellings -/

/-- The spelling of a token that is stored. -/
inductive Stored : Token → List Char → Prop where
  | fixed {token : Token} {word : List Char} (fixed : Fixed token word) : Stored token word
  | number {numeral : Numeral} (finite : numeral.IsFinite) :
      Stored (.number (some numeral)) (Json.writeNumeral numeral)
  | text (content : String) : Stored (.text (.ok content)) (Json.quote content)

theorem hexDigit?_digitChar {value : Nat} (small : value < 16) :
    hexDigit? (Nat.digitChar value) = some value := by
  have all : ∀ digit : Fin 16, hexDigit? (Nat.digitChar digit) = some digit.val := by decide
  exact all ⟨value, small⟩

theorem isUnit_control {value : Nat} (control : value < 0x20) :
    IsUnit ['0', '0', Nat.digitChar (value / 16), Nat.digitChar (value % 16)] value := by
  refine ⟨0, 0, value / 16, value % 16, ?_, by omega⟩
  simp only [List.map_cons, List.map_nil, hexDigit?_digitChar (show value / 16 < 16 by omega),
    hexDigit?_digitChar (show value % 16 < 16 by omega)]
  rfl

/-- A character is escaped where it could not stand for itself. -/
theorem SpellsText.escape {content rest : List Char} (later : SpellsText content rest)
    (character : Char) : SpellsText (character :: content) (Json.escape character ++ rest) := by
  have named : ∀ letter : Char, shortEscape? letter = some (Char.ofNat character.toNat) →
      SpellsText (character :: content) (['\\', letter] ++ rest) := by
    intro letter stands
    rw [Char.ofNat_toNat] at stands
    exact .letter stands later
  unfold Json.escape
  split
  · rename_i quote
    exact named '"' (by rw [quote]; rfl)
  split
  · rename_i backslash
    exact named '\\' (by rw [backslash]; rfl)
  split
  · rename_i notQuote notBackslash printable
    exact .plain notQuote notBackslash printable later
  split
  · rename_i code
    exact named 'b' (by rw [code]; rfl)
  split
  · rename_i code
    exact named 't' (by rw [code]; rfl)
  split
  · rename_i code
    exact named 'n' (by rw [code]; rfl)
  split
  · rename_i code
    exact named 'f' (by rw [code]; rfl)
  split
  · rename_i code
    exact named 'r' (by rw [code]; rfl)
  · rename_i control _ _ _ _ _
    have spells := SpellsText.single (isUnit_control (Nat.lt_of_not_le control)) (by omega) later
    rw [Char.ofNat_toNat] at spells
    exact spells

theorem spellsText_flatMap_escape (content : List Char) :
    SpellsText content (content.flatMap Json.escape) := by
  induction content with
  | nil => exact .nil
  | cons character content ih => exact ih.escape character

/-- Parts that are written like a number have its value. -/
theorem value_of_text_eq {figures : Figures} {numeral : Numeral} (spelled : figures.IsSpelled)
    (finite : numeral.IsFinite) (text : figures.text = Json.writeNumeral numeral) :
    figures.value = some numeral := by
  obtain ⟨first, others, written, -, scanned⟩ := scan_writeNumeral finite endsNumber_nil
  obtain ⟨first', others', written', -, scanned'⟩ := spelled.scan_eq endsNumber_nil
  rw [text, written] at written'
  obtain ⟨rfl, rfl⟩ := List.cons.inj written'
  rw [scanned] at scanned'
  simp only [Prod.mk.injEq, Token.number.injEq, and_true] at scanned'
  exact scanned'.symm

theorem Stored.spelled {token : Token} {word : List Char} (stored : Stored token word) :
    Spelled token word := by
  cases stored with
  | fixed fixed => exact .fixed fixed
  | @number numeral finite =>
      obtain ⟨figures, spelled, text⟩ : ∃ figures : Figures, figures.IsSpelled ∧
          figures.text = Json.writeNumeral numeral := by
        cases numeral with
        | count value =>
            exact ⟨⟨false, Nat.toDigits 10 value.toNat, none, none⟩,
              ⟨isWhole_toDigits _, by simp, by simp⟩,
              by simp [Figures.text, Figures.magnitude, Figures.fractionText, Figures.powerText,
                Json.writeNumeral]⟩
        | real value =>
            obtain ⟨figures, spelled, -, text⟩ := Figures.exists_of_finite finite
            exact ⟨figures, spelled, text⟩
      rw [← text]
      exact .number spelled (value_of_text_eq spelled finite text)
  | text content =>
      have spelled := Spelled.text (spellsText_flatMap_escape content.toList)
      rw [String.ofList_toList] at spelled
      exact spelled

end Token

/-! ### The tokens of a document -/

namespace Json

mutual

def tokens : Json → List Token
  | .null => [.null]
  | .bool value => [.bool value]
  | .number value => [.number (some value)]
  | .text content => [.text (.ok content)]
  | .array items => .openArray :: itemTokens items
  | .object members => .openObject :: memberTokens members

/-- The tokens of the items of an array, up to and including its closing bracket. -/
def itemTokens : List Json → List Token
  | [] => [.closeArray]
  | [item] => tokens item ++ [.closeArray]
  | item :: next :: rest => tokens item ++ .comma :: itemTokens (next :: rest)

/-- The tokens of the members of an object, up to and including its closing brace. -/
def memberTokens : List (String × Json) → List Token
  | [] => [.closeObject]
  | [(key, value)] => .text (.ok key) :: .colon :: (tokens value ++ [.closeObject])
  | (key, value) :: next :: rest =>
      .text (.ok key) :: .colon :: (tokens value ++ .comma :: memberTokens (next :: rest))

end

mutual

def IsFinite : Json → Prop
  | .number value => value.IsFinite
  | .array items => AreFinite items
  | .object members => MembersFinite members
  | _ => True

/-- Every number of a list of documents is finite. -/
def AreFinite : List Json → Prop
  | [] => True
  | item :: rest => item.IsFinite ∧ AreFinite rest

def MembersFinite : List (String × Json) → Prop
  | [] => True
  | (_, value) :: rest => value.IsFinite ∧ MembersFinite rest

end

theorem areFinite_of_forall {items : List Json} (each : ∀ item ∈ items, item.IsFinite) :
    AreFinite items := by
  induction items with
  | nil => trivial
  | cons item rest ih =>
      obtain ⟨first, others⟩ := List.forall_mem_cons.mp each
      exact ⟨first, ih others⟩

theorem membersFinite_of_forall {members : List (String × Json)}
    (each : ∀ member ∈ members, member.2.IsFinite) : MembersFinite members := by
  induction members with
  | nil => trivial
  | cons member rest ih =>
      obtain ⟨first, others⟩ := List.forall_mem_cons.mp each
      exact ⟨first, ih others⟩

/-- A number off the number line is written as `null`. -/
theorem isFinite_ofFloat (value : Float) : (ofFloat value).IsFinite := by
  unfold ofFloat
  split
  · rename_i finite
    exact finite
  · trivial

open Token (Layout Stored Separated AreBlank)

theorem areBlank_newline (depth : Nat) : AreBlank (newline depth) := by
  refine List.forall_mem_cons.mpr ⟨rfl, ?_⟩
  intro character isCharacter
  rw [List.eq_of_mem_replicate isCharacter]
  rfl

theorem layout_cons {character : Char} {token : Token} {tokens : List Token} {text : List Char}
    (forms : Token.punctuation? character = some token) (layout : Layout Stored tokens text) :
    Layout Stored (token :: tokens) (character :: text) := by
  have word : Layout Stored [token] [character] := .word (.fixed (.punctuation forms))
  exact word.append layout

theorem layout_close {character : Char} {token : Token}
    (forms : Token.punctuation? character = some token) (depth : Nat) :
    Layout Stored [token] (newline depth ++ [character]) :=
  (layout_cons forms .nil).behind (areBlank_newline depth) (by simp)

theorem layout_key (key : String) {tokens : List Token} {text : List Char}
    (layout : Layout Stored tokens text) :
    Layout Stored (.text (.ok key) :: .colon :: tokens) (quote key ++ ':' :: text) := by
  have word : Layout Stored [.text (.ok key)] (quote key) := .word (.text key)
  exact word.append (layout_cons rfl layout)

theorem layout_line (depth : Nat) (key : String) {tokens : List Token} {text : List Char}
    (layout : Layout Stored tokens text) (nonempty : tokens ≠ []) :
    Layout Stored (.text (.ok key) :: .colon :: tokens)
      (newline depth ++ (quote key ++ ':' :: ' ' :: text)) := by
  have blank : AreBlank [' '] := by simp [AreBlank, Token.isBlank]
  exact (layout_key key (layout.behind blank nonempty)).behind (areBlank_newline depth) (by simp)

theorem separated_key {key : String} {tokens : List Token} (separated : Separated tokens) :
    Separated (.text (.ok key) :: .colon :: tokens) :=
  List.isChain_cons_cons.mpr ⟨Or.inr rfl, Token.Separated.cons rfl separated⟩

mutual

theorem layout_compact : (document : Json) → document.IsFinite →
    Layout Stored document.tokens document.compact
  | .null, _ => .word (.fixed .null)
  | .bool true, _ => .word (.fixed .isTrue)
  | .bool false, _ => .word (.fixed .isFalse)
  | .number _, finite => .word (.number finite)
  | .text content, _ => .word (.text content)
  | .array items, finite => layout_cons rfl (layout_compactItems items finite)
  | .object members, finite => layout_cons rfl (layout_compactMembers members finite)

theorem layout_compactItems : (items : List Json) → AreFinite items →
    Layout Stored (itemTokens items) (compactItems items)
  | [], _ => layout_cons rfl .nil
  | [item], finite => (layout_compact item finite.1).append (layout_cons rfl .nil)
  | item :: next :: rest, finite =>
      (layout_compact item finite.1).append
        (layout_cons rfl (layout_compactItems (next :: rest) finite.2))

theorem layout_compactMembers : (members : List (String × Json)) → MembersFinite members →
    Layout Stored (memberTokens members) (compactMembers members)
  | [], _ => layout_cons rfl .nil
  | [(key, value)], finite =>
      layout_key key ((layout_compact value finite.1).append (layout_cons rfl .nil))
  | (key, value) :: next :: rest, finite =>
      layout_key key ((layout_compact value finite.1).append
        (layout_cons rfl (layout_compactMembers (next :: rest) finite.2)))

end

mutual

theorem layout_indented : (depth : Nat) → (document : Json) → document.IsFinite →
    Layout Stored document.tokens (document.indented depth)
  | _, .array [], _ => layout_cons rfl (layout_cons rfl .nil)
  | depth, .array (item :: rest), finite =>
      layout_cons rfl (layout_indentedItems depth (item :: rest) finite)
  | _, .object [], _ => layout_cons rfl (layout_cons rfl .nil)
  | depth, .object (member :: rest), finite =>
      layout_cons rfl (layout_indentedMembers depth (member :: rest) finite)
  | _, .null, _ => .word (.fixed .null)
  | _, .bool true, _ => .word (.fixed .isTrue)
  | _, .bool false, _ => .word (.fixed .isFalse)
  | _, .number _, finite => .word (.number finite)
  | _, .text content, _ => .word (.text content)

theorem layout_indentedItems : (depth : Nat) → (items : List Json) → AreFinite items →
    Layout Stored (itemTokens items) (indentedItems depth items)
  | depth, [], _ => layout_close rfl depth
  | depth, [item], finite => by
      rw [indentedItems, itemTokens, List.append_assoc, List.append_assoc]
      exact ((layout_indented (depth + 1) item finite.1).append (layout_close rfl depth)).behind
        (areBlank_newline (depth + 1)) (by simp)
  | depth, item :: next :: rest, finite => by
      have later : Layout Stored (.comma :: itemTokens (next :: rest))
          (',' :: indentedItems depth (next :: rest)) :=
        layout_cons rfl (layout_indentedItems depth (next :: rest) finite.2)
      rw [indentedItems, itemTokens, List.append_assoc]
      exact ((layout_indented (depth + 1) item finite.1).append later).behind
        (areBlank_newline (depth + 1)) (by simp)

theorem layout_indentedMembers : (depth : Nat) → (members : List (String × Json)) →
    MembersFinite members → Layout Stored (memberTokens members) (indentedMembers depth members)
  | depth, [], _ => layout_close rfl depth
  | depth, [(key, value)], finite => by
      rw [indentedMembers, memberTokens, List.append_assoc, List.append_assoc]
      exact layout_line (depth + 1) key
        ((layout_indented (depth + 1) value finite.1).append (layout_close rfl depth)) (by simp)
  | depth, (key, value) :: next :: rest, finite => by
      have later : Layout Stored (.comma :: memberTokens (next :: rest))
          (',' :: indentedMembers depth (next :: rest)) :=
        layout_cons rfl (layout_indentedMembers depth (next :: rest) finite.2)
      rw [indentedMembers, memberTokens, List.append_assoc]
      exact layout_line (depth + 1) key ((layout_indented (depth + 1) value finite.1).append later)
        (by simp)

end

mutual

/-- In a document no two values or keys stand side by side. -/
theorem separated_tokens : (document : Json) → Separated document.tokens
  | .null => List.isChain_singleton _
  | .bool _ => List.isChain_singleton _
  | .number _ => List.isChain_singleton _
  | .text _ => List.isChain_singleton _
  | .array items => .cons rfl (separated_itemTokens items)
  | .object members => .cons rfl (separated_memberTokens members)

theorem separated_itemTokens : (items : List Json) → Separated (itemTokens items)
  | [] => List.isChain_singleton _
  | [item] => (separated_tokens item).append rfl (List.isChain_singleton _)
  | item :: next :: rest =>
      (separated_tokens item).append rfl (.cons rfl (separated_itemTokens (next :: rest)))

theorem separated_memberTokens : (members : List (String × Json)) →
    Separated (memberTokens members)
  | [] => List.isChain_singleton _
  | [(_, value)] => separated_key
      ((separated_tokens value).append rfl (List.isChain_singleton _))
  | (_, value) :: next :: rest => separated_key
      ((separated_tokens value).append rfl (.cons rfl (separated_memberTokens (next :: rest))))

end

/-- A text in which a document is laid out has the document's tokens. -/
theorem tokenize_of_layout {document : Json} {text : List Char}
    (layout : Layout Stored document.tokens text) : Token.tokenize text = document.tokens := by
  have spelled := layout.mono Token.Stored.spelled
  have cut := spelled.tokenize_eq document.separated_tokens Token.areBlank_nil
  rw [List.append_nil] at cut
  exact cut

/-- Either text of a document with finite numbers has the document's tokens. -/
theorem tokenize_toText {document : Json} (finite : document.IsFinite) :
    Token.tokenize document.toText.toList = document.tokens := by
  rw [toText, String.toList_ofList]
  exact tokenize_of_layout (layout_compact document finite)

theorem tokenize_toIndentedText {document : Json} (finite : document.IsFinite) :
    Token.tokenize document.toIndentedText.toList = document.tokens := by
  rw [toIndentedText, String.toList_ofList]
  exact tokenize_of_layout (layout_indented 0 document finite)

end Json

end BlockStage

import BlockStage.Proofs.DocumentTokens

/-!
# Texts that are cut off

The text of a document may end anywhere: between two tokens, inside a word, behind the point of a
number, in the middle of an escape.  What is left of it is cut into the tokens in front of that
place, and perhaps one more token for what is left of the next one.  That token tells that the
text ended too early, unless it is a number, since the beginning of a stored number may be a
number too.
-/

namespace BlockStage

namespace Token

/-- What becomes of a token whose stored spelling is cut off.  A count stays a count. -/
inductive Stub : Token → Token → Prop where
  | count {value lesser : UInt64} :
      Stub (.number (some (.count value))) (.number (some (.count lesser)))
  | real {value : Float} {numeral : Numeral} :
      Stub (.number (some (.real value))) (.number (some numeral))
  | broken {value : Float} :
      Stub (.number (some (.real value))) (.brokenNumber .premature .malformed)
  | null : Stub .null (.brokenWord .premature)
  | bool {value : Bool} : Stub (.bool value) (.brokenWord .premature)
  | text {content : String} : Stub (.text (.ok content)) (.brokenText .premature .premature)

/-- What is left of a row of tokens whose text is cut off. -/
inductive CutOff : List Token → List Token → Prop where
  | nothing {token : Token} {rest : List Token} : CutOff (token :: rest) []
  | stub {token stub : Token} {rest : List Token} (isStub : Stub token stub) :
      CutOff (token :: rest) [stub]
  | cons {token : Token} {tokens cut : List Token} (later : CutOff tokens cut) :
      CutOff (token :: tokens) (token :: cut)

/-! ### Words -/

theorem dropWord_cut {word before : List Char} (isPrefix : before <+: word)
    (proper : before ≠ word) : dropWord word before = .error .premature := by
  induction word generalizing before with
  | nil => exact absurd (List.prefix_nil.mp isPrefix) proper
  | cons letter word ih =>
      cases before with
      | nil => rfl
      | cons first before =>
          obtain ⟨rfl, isRest⟩ := List.cons_prefix_cons.mp isPrefix
          simp only [dropWord, if_true]
          exact ih isRest (by simpa using proper)

theorem scanWord_cut (token : Token) {word before : List Char} (isPrefix : before <+: word)
    (proper : before ≠ word) : scanWord token word before = (.brokenWord .premature, []) := by
  rw [scanWord, dropWord_cut isPrefix proper]

/-! ### Quoted texts -/

/-- Both readers of a quoted text find that it ends too early. -/
def Unfinished (characters : List Char) : Prop :=
  (∀ collected : List Char, readText collected characters = .error .premature) ∧
    skipText characters = .error .premature

theorem unfinished_nil : Unfinished [] :=
  ⟨fun collected => by rw [readText], by rw [skipText]⟩

theorem unfinished_backslash : Unfinished ['\\'] :=
  ⟨fun collected => by rw [readText]; rfl, by rw [skipText]; rfl⟩

theorem unfinished_unicode {early : List Char} (short : hexEscape early = .error .premature) :
    Unfinished ('\\' :: 'u' :: early) := by
  have notQuote : ¬ '\\' = '"' := by decide
  have escape : unicodeEscape early = .error .premature := by
    simp only [unicodeEscape, short]
  constructor
  · intro collected
    rw [readText]
    simp only [if_neg notQuote, if_true]
    split
    · simp_all
    · simp_all
  · rw [skipText]
    simp only [if_neg notQuote, if_true]
    split
    · simp_all
    · simp_all

theorem skipText_unicode {digits : List Char} {unit : Nat} (isUnit : IsUnit digits unit)
    (rest : List Char) : skipText ('\\' :: 'u' :: (digits ++ rest)) = skipText rest := by
  have notQuote : ¬ '\\' = '"' := by decide
  rw [skipText]
  simp only [if_neg notQuote, if_true]
  have read := isUnit.hexEscape_eq rest
  split
  · simp_all
  · simp_all

theorem SpellsText.skipText_append {content characters : List Char}
    (spells : SpellsText content characters) (rest : List Char) :
    skipText (characters ++ rest) = skipText rest := by
  induction spells with
  | nil => rfl
  | plain notQuote notBackslash printable later ih =>
      rw [List.cons_append, skipText.eq_def]
      simp only [notQuote, notBackslash, Nat.not_lt.mpr printable, if_false]
      exact ih
  | @letter letter decoded content rest stands later ih =>
      have notUnicode : letter ≠ 'u' := by
        rintro rfl
        cases stands
      rw [List.cons_append, List.cons_append, skipText]
      simp [notUnicode, stands, ih]
  | single isUnit range later ih =>
      rw [List.cons_append, List.cons_append, List.append_assoc, skipText_unicode isUnit, ih]
  | pair isHigh isLow highRange lowRange later ih =>
      rw [List.cons_append, List.cons_append, List.append_assoc, skipText_unicode isHigh,
        List.cons_append, List.cons_append, List.append_assoc, skipText_unicode isLow, ih]

theorem Unfinished.behind {rest : List Char} (unfinished : Unfinished rest)
    {content characters : List Char} (spells : SpellsText content characters) :
    Unfinished (characters ++ rest) := by
  constructor
  · intro collected
    rw [spells.readText_append, unfinished.1]
  · rw [spells.skipText_append, unfinished.2]

theorem unfinished_letter {letter : Char} {early : List Char} (isEarly : early <+: ['\\', letter])
    (proper : early ≠ ['\\', letter]) : Unfinished early := by
  simp only [List.prefix_cons_iff, List.prefix_nil] at isEarly
  obtain rfl | ⟨rest, rfl, rfl | ⟨last, rfl, rfl⟩⟩ := isEarly
  · exact unfinished_nil
  · exact unfinished_backslash
  · exact absurd rfl proper

/-- The digits in an escape of a control character, the second last of which is `0` or `1`. -/
theorem hexEscape_cut {value : Nat} (control : value < 0x20) {early : List Char}
    (isEarly : early <+: ['0', '0', Nat.digitChar (value / 16), Nat.digitChar (value % 16)])
    (proper : early ≠ ['0', '0', Nat.digitChar (value / 16), Nat.digitChar (value % 16)]) :
    hexEscape early = .error .premature := by
  have small : value / 16 = 0 ∨ value / 16 = 1 := by omega
  simp only [List.prefix_cons_iff, List.prefix_nil] at isEarly
  obtain rfl | ⟨_, rfl, rfl | ⟨_, rfl, rfl | ⟨_, rfl, rfl | ⟨_, rfl, rfl⟩⟩⟩⟩ := isEarly
  · rfl
  · rfl
  · rfl
  · rcases small with zero | one
    · rw [zero]
      rfl
    · rw [one]
      rfl
  · exact absurd rfl proper

theorem escape_cases (character : Char) :
    Json.escape character = [character] ∨ (∃ letter, Json.escape character = ['\\', letter]) ∨
      character.toNat < 0x20 ∧ Json.escape character = ['\\', 'u', '0', '0',
        Nat.digitChar (character.toNat / 16), Nat.digitChar (character.toNat % 16)] := by
  unfold Json.escape
  split_ifs with quote backslash printable
  · exact Or.inr (Or.inl ⟨_, rfl⟩)
  · exact Or.inr (Or.inl ⟨_, rfl⟩)
  · exact Or.inl rfl
  all_goals first
    | exact Or.inr (Or.inl ⟨_, rfl⟩)
    | exact Or.inr (Or.inr ⟨by omega, rfl⟩)

theorem unfinished_escape {character : Char} {early : List Char}
    (isEarly : early <+: Json.escape character) (proper : early ≠ Json.escape character) :
    Unfinished early := by
  rcases escape_cases character with plain | ⟨letter, short⟩ | ⟨control, long⟩
  · rw [plain] at isEarly proper
    obtain rfl | ⟨_, rfl, nothing⟩ := List.prefix_cons_iff.mp isEarly
    · exact unfinished_nil
    · rw [List.prefix_nil.mp nothing] at proper
      exact absurd rfl proper
  · rw [short] at isEarly proper
    exact unfinished_letter isEarly proper
  · rw [long] at isEarly proper
    obtain rfl | ⟨_, rfl, isRest⟩ := List.prefix_cons_iff.mp isEarly
    · exact unfinished_nil
    obtain rfl | ⟨digits, rfl, isDigits⟩ := List.prefix_cons_iff.mp isRest
    · exact unfinished_backslash
    · exact unfinished_unicode (hexEscape_cut control isDigits (by simpa using proper))

/-- A quoted text that is cut off is not finished, wherever the cut falls. -/
theorem unfinished_of_cut {content before : List Char}
    (isPrefix : before <+: content.flatMap Json.escape) : Unfinished before := by
  induction content generalizing before with
  | nil =>
      rw [List.flatMap_nil, List.prefix_nil] at isPrefix
      rw [isPrefix]
      exact unfinished_nil
  | cons character content ih =>
      rw [List.flatMap_cons] at isPrefix
      rcases proper_append_cases isPrefix with ⟨isEarly, proper⟩ | ⟨later, rfl, isLater⟩
      · exact unfinished_escape isEarly proper
      · have spells := SpellsText.nil.escape character
        rw [List.append_nil] at spells
        exact (ih isLater).behind spells

theorem scan_cut_text {content : String} {before : List Char}
    (isPrefix : before <+: content.toList.flatMap Json.escape ++ ['"'])
    (proper : before ≠ content.toList.flatMap Json.escape ++ ['"']) :
    scan '"' before = (.brokenText .premature .premature, []) := by
  have within : before <+: content.toList.flatMap Json.escape := by
    rcases List.prefix_concat_iff.mp isPrefix with whole | within
    · exact absurd whole proper
    · exact within
  obtain ⟨strict, lenient⟩ := unfinished_of_cut within
  have scanned : scan '"' before = scanText before := rfl
  simp only [scanned, scanText, strict, lenient]

/-! ### Tokens -/

theorem Fixed.scan_cut {token : Token} {word : List Char} (fixed : Fixed token word) {first : Char}
    {others : List Char} (isPrefix : first :: others <+: word) (proper : first :: others ≠ word) :
    isBlank first = false ∧ ∃ stub, Stub token stub ∧ scan first others = (stub, []) := by
  cases fixed with
  | punctuation forms =>
      obtain ⟨rfl, nothing⟩ := List.cons_prefix_cons.mp isPrefix
      rw [List.prefix_nil.mp nothing] at proper
      exact absurd rfl proper
  | null =>
      obtain ⟨rfl, isRest⟩ := List.cons_prefix_cons.mp isPrefix
      exact ⟨rfl, _, .null, scanWord_cut .null isRest (by simpa using proper)⟩
  | isTrue =>
      obtain ⟨rfl, isRest⟩ := List.cons_prefix_cons.mp isPrefix
      exact ⟨rfl, _, .bool, scanWord_cut (.bool true) isRest (by simpa using proper)⟩
  | isFalse =>
      obtain ⟨rfl, isRest⟩ := List.cons_prefix_cons.mp isPrefix
      exact ⟨rfl, _, .bool, scanWord_cut (.bool false) isRest (by simpa using proper)⟩

/-- A stored token that is cut off is one token still. -/
theorem Stored.scan_cut {token : Token} {word : List Char} (stored : Stored token word)
    {first : Char} {others : List Char} (isPrefix : first :: others <+: word)
    (proper : first :: others ≠ word) :
    isBlank first = false ∧ ∃ stub, Stub token stub ∧ scan first others = (stub, []) := by
  cases stored with
  | fixed fixed => exact fixed.scan_cut isPrefix proper
  | @number numeral finite =>
      cases numeral with
      | count value =>
          obtain ⟨notBlank, lesser, scanned⟩ := scan_cut_count isPrefix
          exact ⟨notBlank, _, .count, scanned⟩
      | real value =>
          obtain ⟨notBlank, broken | ⟨numeral, scanned⟩⟩ := scan_cut_real finite isPrefix proper
          · exact ⟨notBlank, _, .broken, broken⟩
          · exact ⟨notBlank, _, .real, scanned⟩
  | text content =>
      obtain ⟨rfl, isRest⟩ := List.cons_prefix_cons.mp isPrefix
      exact ⟨rfl, _, .text, scan_cut_text isRest fun whole => proper (by rw [whole]; rfl)⟩

theorem EndsNumber.cut {text before : List Char} (ends : EndsNumber text)
    (isPrefix : before <+: text) : EndsNumber before := by
  cases before with
  | nil => exact endsNumber_nil
  | cons first others =>
      obtain ⟨rest, rfl⟩ := isPrefix
      exact ends

/-- The text of a row of tokens that is cut off is cut into what is left of the tokens. -/
theorem Layout.cutOff_tokenize {tokens : List Token} {text : List Char}
    (layout : Layout Stored tokens text) (separated : Separated tokens) {before : List Char}
    (isPrefix : before <+: text) (proper : before ≠ text) :
    CutOff tokens (tokenize before) := by
  have collects : ∃ cut, CutOff tokens cut ∧
      ∀ collected, collect collected before = collected.reverse ++ cut := by
    induction layout generalizing before with
    | nil => exact absurd (List.prefix_nil.mp isPrefix) proper
    | @cons token tokens blanks word rest areBlank stored later ih =>
        rcases proper_append_cases isPrefix with ⟨isBlank, -⟩ | ⟨more, rfl, isMore⟩
        · -- The cut falls into the blanks in front of the token.
          refine ⟨[], .nothing, fun collected => ?_⟩
          have blank : AreBlank before := fun character member =>
            areBlank character (isBlank.subset member)
          have cut := blank.collect_eq collected []
          rw [List.append_nil, collect] at cut
          rw [cut, List.append_nil]
        simp only [areBlank.collect_eq]
        rcases proper_append_cases isMore with ⟨isEarly, early⟩ | ⟨last, rfl, isLast⟩
        · -- The cut falls into the token, of which nothing or a stub is left.
          cases more with
          | nil => exact ⟨[], .nothing, fun collected => by rw [collect, List.append_nil]⟩
          | cons first others =>
              obtain ⟨notBlank, stub, isStub, scanned⟩ := stored.scan_cut isEarly early
              refine ⟨[stub], .stub isStub, fun collected => ?_⟩
              rw [collect_of_scan collected notBlank scanned, collect, List.reverse_cons]
        · -- The cut falls behind the token.
          have ends : token.isPunctuation = true ∨ EndsNumber last := by
            have spelled := later.mono Stored.spelled
            have ends := spelled.endsNumber separated areBlank_nil
            rw [List.append_nil] at ends
            exact ends.imp_right fun ends => ends.cut isLast
          obtain ⟨first, others, rfl, notBlank, scanned⟩ := stored.spelled.scan_eq ends
          obtain ⟨cut, cutOff, collects⟩ := ih separated.of_cons isLast (by simpa using proper)
          refine ⟨token :: cut, .cons cutOff, fun collected => ?_⟩
          rw [List.cons_append, collect_of_scan collected notBlank scanned, collects,
            List.reverse_cons, List.append_assoc]
          rfl
  obtain ⟨cut, cutOff, collects⟩ := collects
  have tokens := collects []
  rw [List.reverse_nil, List.nil_append] at tokens
  rw [tokenize, tokens]
  exact cutOff

end Token

end BlockStage

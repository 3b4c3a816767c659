import BlockStage.Proofs.SpelledNumber

/-!
# Texts laid out as tokens

A token can be written in many ways: a number with any digits that stand for it, a quoted text
with any of its characters escaped.  A text is laid out as a row of tokens when it holds one
spelling of each, with any blanks in front of it.  Such a text is cut into exactly these tokens,
provided that of two neighbouring tokens one is a bracket, comma or colon, as it is in every
document.
-/

namespace BlockStage

namespace Token

/-! ### Quoted texts -/

/-- Four characters are at least four bytes. -/
theorem isShort_cons (first second third fourth : Char) (rest : List Char) :
    isShort (first :: second :: third :: fourth :: rest) = false := by
  have pieces : String.ofList [first, second, third, fourth] =
      String.singleton first ++ String.singleton second ++ String.singleton third ++
        String.singleton fourth := by
    simp only [String.singleton_eq_ofList, ← String.ofList_append, List.cons_append,
      List.nil_append]
  have sizes := first.utf8Size_pos
  have sizes' := second.utf8Size_pos
  have sizes'' := third.utf8Size_pos
  have sizes''' := fourth.utf8Size_pos
  simp only [isShort, List.take, pieces, String.utf8ByteSize_append,
    String.utf8ByteSize_singleton, decide_eq_false_iff_not]
  omega

/-- Four hexadecimal digits and the number that they stand for. -/
def IsUnit (digits : List Char) (unit : Nat) : Prop :=
  ∃ first second third fourth : Nat,
    digits.map hexDigit? = [some first, some second, some third, some fourth] ∧
      unit = ((first * 16 + second) * 16 + third) * 16 + fourth

theorem IsUnit.hexEscape_eq {digits : List Char} {unit : Nat} (isUnit : IsUnit digits unit)
    (rest : List Char) : hexEscape (digits ++ rest) = .ok (unit, rest) := by
  obtain ⟨first, second, third, fourth, values, rfl⟩ := isUnit
  rcases digits with _ | ⟨a, _ | ⟨b, _ | ⟨c, _ | ⟨d, _ | ⟨e, more⟩⟩⟩⟩⟩ <;>
    simp only [List.map_cons, List.map_nil, List.cons.injEq, reduceCtorEq, and_false,
      and_true] at values
  obtain ⟨isFirst, isSecond, isThird, isFourth⟩ := values
  simp only [List.cons_append, List.nil_append, hexEscape, isShort_cons, Bool.false_eq_true,
    if_false, isFirst, isSecond, isThird, isFourth]

/-- An escape that stands for a character by itself. -/
theorem IsUnit.unicodeEscape_eq {digits : List Char} {unit : Nat} (isUnit : IsUnit digits unit)
    (single : unit < 0xD800 ∨ 0xDFFF < unit) (rest : List Char) :
    unicodeEscape (digits ++ rest) = .ok (Char.ofNat unit, rest) := by
  have notLow : ¬ (0xDC00 ≤ unit ∧ unit ≤ 0xDFFF) := by omega
  have notHigh : unit < 0xD800 ∨ 0xDBFF < unit := by omega
  simp only [unicodeEscape, isUnit.hexEscape_eq, notLow, notHigh, if_false, if_true]

/-- Two escapes that stand for a character together. -/
theorem IsUnit.unicodeEscape_pair {digits partners : List Char} {high low : Nat}
    (isHigh : IsUnit digits high) (isLow : IsUnit partners low)
    (highRange : 0xD800 ≤ high ∧ high ≤ 0xDBFF) (lowRange : 0xDC00 ≤ low ∧ low ≤ 0xDFFF)
    (rest : List Char) :
    unicodeEscape (digits ++ '\\' :: 'u' :: (partners ++ rest)) =
      .ok (Char.ofNat (0x10000 + (high - 0xD800) * 0x400 + (low - 0xDC00)), rest) := by
  have notLow : ¬ (0xDC00 ≤ high ∧ high ≤ 0xDFFF) := by omega
  have paired : ¬ (high < 0xD800 ∨ 0xDBFF < high) := by omega
  simp only [unicodeEscape, isHigh.hexEscape_eq, isLow.hexEscape_eq, notLow, paired, lowRange,
    and_self, if_false, if_true]

/-- What may stand between the quotes of a text: characters that stand for themselves, and
escapes of one letter, of one number and of two numbers. -/
inductive SpellsText : List Char → List Char → Prop where
  | nil : SpellsText [] []
  | plain {character : Char} {content rest : List Char} (notQuote : character ≠ '"')
      (notBackslash : character ≠ '\\') (printable : 0x20 ≤ character.toNat)
      (later : SpellsText content rest) : SpellsText (character :: content) (character :: rest)
  | letter {letter decoded : Char} {content rest : List Char}
      (stands : shortEscape? letter = some decoded) (later : SpellsText content rest) :
      SpellsText (decoded :: content) ('\\' :: letter :: rest)
  | single {digits : List Char} {unit : Nat} {content rest : List Char}
      (isUnit : IsUnit digits unit) (range : unit < 0xD800 ∨ 0xDFFF < unit)
      (later : SpellsText content rest) :
      SpellsText (Char.ofNat unit :: content) ('\\' :: 'u' :: (digits ++ rest))
  | pair {digits partners : List Char} {high low : Nat} {content rest : List Char}
      (isHigh : IsUnit digits high) (isLow : IsUnit partners low)
      (highRange : 0xD800 ≤ high ∧ high ≤ 0xDBFF) (lowRange : 0xDC00 ≤ low ∧ low ≤ 0xDFFF)
      (later : SpellsText content rest) :
      SpellsText (Char.ofNat (0x10000 + (high - 0xD800) * 0x400 + (low - 0xDC00)) :: content)
        ('\\' :: 'u' :: (digits ++ '\\' :: 'u' :: (partners ++ rest)))

theorem readText_letter {letter decoded : Char} (collected rest : List Char)
    (stands : shortEscape? letter = some decoded) :
    readText collected ('\\' :: letter :: rest) = readText (decoded :: collected) rest := by
  have notUnicode : letter ≠ 'u' := by
    rintro rfl
    cases stands
  rw [readText]
  simp [notUnicode, stands]

theorem readText_unicodeEscape {decoded : Char} {rest after : List Char} (collected : List Char)
    (stands : unicodeEscape rest = .ok (decoded, after)) :
    readText collected ('\\' :: 'u' :: rest) = readText (decoded :: collected) after := by
  have notQuote : ¬ '\\' = '"' := by decide
  rw [readText]
  simp only [if_neg notQuote, if_true]
  split
  · rename_i read
    rw [stands] at read
    cases read
    rfl
  · rename_i read
    rw [stands] at read
    cases read

/-- A spelled text is read character by character, whatever follows it. -/
theorem SpellsText.readText_append {content characters : List Char}
    (spells : SpellsText content characters) (collected rest : List Char) :
    readText collected (characters ++ rest) = readText (content.reverse ++ collected) rest := by
  induction spells generalizing collected with
  | nil => rfl
  | plain notQuote notBackslash printable later ih =>
      rw [List.cons_append, readText.eq_def]
      simp only [notQuote, notBackslash, Nat.not_lt.mpr printable, if_false]
      simp [ih]
  | letter stands later ih =>
      rw [List.cons_append, List.cons_append, readText_letter _ _ stands]
      simp [ih]
  | single isUnit range later ih =>
      rw [List.cons_append, List.cons_append, List.append_assoc,
        readText_unicodeEscape _ (isUnit.unicodeEscape_eq range _)]
      simp [ih]
  | pair isHigh isLow highRange lowRange later ih =>
      rw [List.cons_append, List.cons_append, List.append_assoc, List.cons_append,
        List.cons_append, List.append_assoc,
        readText_unicodeEscape _ (isHigh.unicodeEscape_pair isLow highRange lowRange _)]
      simp [ih]

theorem SpellsText.readText_eq {content characters : List Char}
    (spells : SpellsText content characters) (rest : List Char) :
    readText [] (characters ++ '"' :: rest) = .ok (content, rest) := by
  rw [spells.readText_append, readText.eq_def]
  simp

theorem scan_text {content characters : List Char} (spells : SpellsText content characters)
    (rest : List Char) :
    scan '"' (characters ++ '"' :: rest) = (.text (.ok (String.ofList content)), rest) := by
  have read := spells.readText_eq rest
  have scanned : scan '"' (characters ++ '"' :: rest) = scanText (characters ++ '"' :: rest) := rfl
  rw [scanned]
  simp only [scanText, read]

/-! ### Spellings of tokens -/

def isPunctuation : Token → Bool
  | .openArray | .closeArray | .openObject | .closeObject | .comma | .colon => true
  | _ => false

/-- The characters that are tokens by themselves. -/
def punctuationCharacters : List Char := ['[', ']', '\x7b', '\x7d', ',', ':']

theorem mem_of_punctuation? {character : Char} {token : Token}
    (forms : punctuation? character = some token) : character ∈ punctuationCharacters := by
  by_contra absent
  simp only [punctuationCharacters, List.mem_cons, List.not_mem_nil, or_false, not_or] at absent
  simp only [punctuation?, absent, if_false] at forms
  cases forms

/-- The tokens that have one spelling. -/
inductive Fixed : Token → List Char → Prop where
  | punctuation {character : Char} {token : Token} (forms : punctuation? character = some token) :
      Fixed token [character]
  | null : Fixed .null ['n', 'u', 'l', 'l']
  | isTrue : Fixed (.bool true) ['t', 'r', 'u', 'e']
  | isFalse : Fixed (.bool false) ['f', 'a', 'l', 's', 'e']

/-- The spellings of a token. -/
inductive Spelled : Token → List Char → Prop where
  | fixed {token : Token} {word : List Char} (fixed : Fixed token word) : Spelled token word
  | number {figures : Figures} {numeral : Numeral} (spelled : figures.IsSpelled)
      (value : figures.value = some numeral) : Spelled (.number (some numeral)) figures.text
  | text {content characters : List Char} (spells : SpellsText content characters) :
      Spelled (.text (.ok (String.ofList content))) ('"' :: (characters ++ ['"']))

theorem Fixed.scan_eq {token : Token} {word : List Char} (fixed : Fixed token word)
    (rest : List Char) :
    ∃ first others, word = first :: others ∧ isBlank first = false ∧
      scan first (others ++ rest) = (token, rest) := by
  cases fixed with
  | @punctuation character token forms =>
      have dark : ∀ other ∈ punctuationCharacters, isBlank other = false := by
        simp [punctuationCharacters, isBlank]
      refine ⟨character, [], rfl, dark character (mem_of_punctuation? forms), ?_⟩
      simp only [List.nil_append, scan, forms]
  | null => exact ⟨'n', ['u', 'l', 'l'], rfl, rfl, rfl⟩
  | isTrue => exact ⟨'t', ['r', 'u', 'e'], rfl, rfl, rfl⟩
  | isFalse => exact ⟨'f', ['a', 'l', 's', 'e'], rfl, rfl, rfl⟩

/-- Only numbers need to be told where they end, and punctuation is no number. -/
theorem Spelled.scan_eq {token : Token} {word : List Char} (spelled : Spelled token word)
    {rest : List Char} (ends : token.isPunctuation = true ∨ EndsNumber rest) :
    ∃ first others, word = first :: others ∧ isBlank first = false ∧
      scan first (others ++ rest) = (token, rest) := by
  cases spelled with
  | fixed fixed => exact fixed.scan_eq rest
  | number figuresSpelled value =>
      obtain no | ends := ends
      · cases no
      obtain ⟨first, others, text, notBlank, scanned⟩ := figuresSpelled.scan_eq ends
      rw [value] at scanned
      exact ⟨first, others, text, notBlank, scanned⟩
  | @text content characters spells =>
      refine ⟨'"', characters ++ ['"'], rfl, rfl, ?_⟩
      rw [List.append_assoc]
      exact scan_text spells rest

theorem endsNumber_cons {character : Char} (rest : List Char)
    (other : character.isDigit = false ∧ character ≠ '.' ∧ character ≠ 'e' ∧ character ≠ 'E') :
    EndsNumber (character :: rest) := by
  intro first isFirst
  obtain rfl : character = first := by simpa using isFirst
  exact other

theorem endsNumber_of_isBlank {character : Char} (rest : List Char)
    (blank : isBlank character = true) : EndsNumber (character :: rest) := by
  simp only [isBlank, Bool.or_eq_true, beq_iff_eq] at blank
  rcases blank with ((rfl | rfl) | rfl) | rfl <;> exact endsNumber_cons rest (by decide)

theorem Spelled.endsNumber {token : Token} {word : List Char} (spelled : Spelled token word)
    (punctuation : token.isPunctuation = true) (rest : List Char) : EndsNumber (word ++ rest) := by
  cases spelled with
  | fixed fixed =>
      cases fixed with
      | @punctuation character token forms =>
          have stopping : ∀ other ∈ punctuationCharacters,
              other.isDigit = false ∧ other ≠ '.' ∧ other ≠ 'e' ∧ other ≠ 'E' := by
            simp [punctuationCharacters]
          exact endsNumber_cons rest (stopping character (mem_of_punctuation? forms))
      | null => cases punctuation
      | isTrue => cases punctuation
      | isFalse => cases punctuation
  | number figuresSpelled value => cases punctuation
  | text spells => cases punctuation

/-! ### Layouts -/

/-- Characters that stand for nothing. -/
def AreBlank (blanks : List Char) : Prop := ∀ character ∈ blanks, isBlank character = true

theorem areBlank_nil : AreBlank [] := by simp [AreBlank]

/-- A text holds a spelling of each token of a row, with any blanks in front of it. -/
inductive Layout (Spelling : Token → List Char → Prop) : List Token → List Char → Prop where
  | nil : Layout Spelling [] []
  | cons {token : Token} {tokens : List Token} {blanks word rest : List Char}
      (areBlank : AreBlank blanks) (spelling : Spelling token word)
      (later : Layout Spelling tokens rest) :
      Layout Spelling (token :: tokens) (blanks ++ (word ++ rest))

/-- Of two neighbouring tokens one is punctuation. -/
def Separated (tokens : List Token) : Prop :=
  tokens.IsChain fun token next => token.isPunctuation = true ∨ next.isPunctuation = true

theorem collect_of_isBlank {character : Char} (collected : List Token) (rest : List Char)
    (blank : isBlank character = true) :
    collect collected (character :: rest) = collect collected rest := by
  rw [collect]
  simp only [blank, if_true]

theorem collect_of_scan {character : Char} {rest after : List Char} {token : Token}
    (collected : List Token) (notBlank : isBlank character = false)
    (scanned : scan character rest = (token, after)) :
    collect collected (character :: rest) = collect (token :: collected) after := by
  rw [collect]
  simp only [notBlank, scanned, Bool.false_eq_true, if_false]

theorem AreBlank.collect_eq {blanks : List Char} (areBlank : AreBlank blanks)
    (collected : List Token) (rest : List Char) :
    collect collected (blanks ++ rest) = collect collected rest := by
  induction blanks with
  | nil => rfl
  | cons blank blanks ih =>
      obtain ⟨isBlank, others⟩ := List.forall_mem_cons.mp areBlank
      rw [List.cons_append, collect_of_isBlank collected _ isBlank, ih others]

theorem AreBlank.endsNumber {blanks rest : List Char} (areBlank : AreBlank blanks)
    (ends : EndsNumber rest) : EndsNumber (blanks ++ rest) := by
  cases blanks with
  | nil => exact ends
  | cons blank blanks => exact endsNumber_of_isBlank _ (areBlank blank List.mem_cons_self)

namespace Layout

variable {Spelling : Token → List Char → Prop} {tokens : List Token} {text : List Char}

theorem word {token : Token} {word : List Char} (spelling : Spelling token word) :
    Layout Spelling [token] word := by
  have layout := Layout.cons areBlank_nil spelling .nil
  simpa using layout

theorem append {tokens' : List Token} {text' : List Char} (layout : Layout Spelling tokens text)
    (layout' : Layout Spelling tokens' text') :
    Layout Spelling (tokens ++ tokens') (text ++ text') := by
  induction layout with
  | nil => exact layout'
  | cons areBlank spelling later ih =>
      rw [List.cons_append, List.append_assoc, List.append_assoc]
      exact .cons areBlank spelling ih

/-- More blanks may stand in front of tokens. -/
theorem behind {blanks : List Char} (layout : Layout Spelling tokens text)
    (areBlank : AreBlank blanks) (nonempty : tokens ≠ []) :
    Layout Spelling tokens (blanks ++ text) := by
  cases layout with
  | nil => exact absurd rfl nonempty
  | cons alsoBlank spelling later =>
      rw [← List.append_assoc]
      exact .cons (List.forall_mem_append.mpr ⟨areBlank, alsoBlank⟩) spelling later

theorem mono {Other : Token → List Char → Prop} (layout : Layout Spelling tokens text)
    (each : ∀ {token word}, Spelling token word → Other token word) :
    Layout Other tokens text := by
  induction layout with
  | nil => exact .nil
  | cons areBlank spelling later ih => exact .cons areBlank (each spelling) ih

/-- Behind a token no number goes on. -/
theorem endsNumber {token : Token} (layout : Layout Spelled tokens text)
    (separated : Separated (token :: tokens)) {blanks : List Char} (areBlank : AreBlank blanks) :
    token.isPunctuation = true ∨ EndsNumber (text ++ blanks) := by
  cases layout with
  | nil =>
      have ends := areBlank.endsNumber endsNumber_nil
      rw [List.append_nil] at ends
      exact Or.inr ends
  | cons inFront spelling later =>
      refine (List.isChain_cons_cons.mp separated).1.imp_right fun punctuation => ?_
      rw [List.append_assoc, List.append_assoc]
      exact inFront.endsNumber (spelling.endsNumber punctuation _)

/-- A text is cut into the tokens that it is laid out as. -/
theorem tokenize_eq (layout : Layout Spelled tokens text) (separated : Separated tokens)
    {blanks : List Char} (areBlank : AreBlank blanks) : tokenize (text ++ blanks) = tokens := by
  have collects (collected : List Token) :
      collect collected (text ++ blanks) = collected.reverse ++ tokens := by
    induction layout generalizing collected with
    | nil =>
        have blank := areBlank.collect_eq collected []
        rw [List.append_nil, collect] at blank
        rw [List.nil_append, blank, List.append_nil]
    | cons inFront spelling later ih =>
        obtain ⟨first, others, rfl, notBlank, scanned⟩ :=
          spelling.scan_eq (later.endsNumber separated areBlank)
        rw [List.append_assoc, List.append_assoc, inFront.collect_eq, List.cons_append,
          collect_of_scan collected notBlank scanned, ih separated.of_cons, List.reverse_cons,
          List.append_assoc]
        rfl
  exact collects []

end Layout

/-! ### Rows of separated tokens -/

theorem Separated.append {tokens : List Token} (separated : Separated tokens) {next : Token}
    {others : List Token} (punctuation : next.isPunctuation = true)
    (separated' : Separated (next :: others)) : Separated (tokens ++ next :: others) := by
  refine List.isChain_append.mpr ⟨separated, separated', ?_⟩
  intro token _ head isHead
  obtain rfl : next = head := by simpa using isHead
  exact Or.inr punctuation

theorem Separated.cons {token : Token} (punctuation : token.isPunctuation = true)
    {tokens : List Token} (separated : Separated tokens) : Separated (token :: tokens) := by
  refine List.isChain_cons.mpr ⟨?_, separated⟩
  intro next _
  exact Or.inl punctuation

end Token

end BlockStage

import BlockStage.Proofs.ExpressionTree
import BlockStage.Proofs.ShownNumber

/-!
# Shown expressions are read back

The text of an expression puts brackets around two operands and their operator,
and nothing around a negation.  Everything else in it is a word: a hole, a cut,
a number or a name.  As long as names are letters and no word that means
something else, a reader of the text finds the tree again, so expressions that
look alike have the same number, in whichever programs they are and however
their operands are shared there.
-/

namespace BlockStage

/-- A word of letters that means nothing else where names stand. -/
structure IsPlainName (name : String) : Prop where
  nonempty : name ≠ ""
  letters : ∀ letter ∈ name.toList, letter.isAlpha = true
  unreserved : name ∉ ["not", "and", "or", "NaN", "inf"]

/-! ### Words -/

/-- The signs that no word has in it. -/
def isSeparator (sign : Char) : Bool := sign == ' ' || sign == '(' || sign == ')'

/-- The word at the beginning of a text, and what follows it. -/
def takeWord (text : List Char) : List Char × List Char :=
  (text.takeWhile (!isSeparator ·), text.dropWhile (!isSeparator ·))

def IsWord (word : List Char) : Prop := ∀ sign ∈ word, isSeparator sign = false

/-- A word, or a whole expression, is over here: the text ends, goes on with a blank or closes a
bracket. -/
def EndsWord (rest : List Char) : Prop := ∀ sign ∈ rest.head?, sign = ' ' ∨ sign = ')'

theorem endsWord_cons {sign : Char} (ends : sign = ' ' ∨ sign = ')') (rest : List Char) :
    EndsWord (sign :: rest) := by
  intro first isFirst
  obtain rfl : sign = first := by simpa using isFirst
  exact ends

theorem takeWord_append {word rest : List Char} (isWord : IsWord word) (ends : EndsWord rest) :
    takeWord (word ++ rest) = (word, rest) := by
  have unseparated : ∀ sign ∈ word, (!isSeparator sign) = true := by
    intro sign member
    rw [isWord sign member]
    rfl
  have ended : rest.takeWhile (!isSeparator ·) = [] ∧ rest.dropWhile (!isSeparator ·) = rest := by
    cases rest with
    | nil => exact ⟨rfl, rfl⟩
    | cons sign rest =>
        have separates : isSeparator sign = true := by
          rcases ends sign rfl with rfl | rfl <;> rfl
        simp [separates]
  simp only [takeWord, List.takeWhile_append_of_pos unseparated,
    List.dropWhile_append_of_pos unseparated, ended, List.append_nil]

theorem isSeparator_of_isAlphanum {sign : Char} (isAlphanum : sign.isAlphanum = true) :
    isSeparator sign = false := by
  by_contra separates
  simp only [isSeparator, Bool.not_eq_false, Bool.or_eq_true, beq_iff_eq] at separates
  rcases separates with (rfl | rfl) | rfl <;> exact absurd isAlphanum (by decide)

theorem isWord_of_isPlainName {name : String} (plain : IsPlainName name) : IsWord name.toList := by
  intro letter member
  apply isSeparator_of_isAlphanum
  simp [Char.isAlphanum, plain.letters letter member]

theorem isWord_symbol (operator : Operator) : IsWord operator.symbol.toList := by
  cases operator with
  | arithmetic operation => cases operation <;> simp [IsWord, isSeparator, Operator.symbol]
  | comparison relation => cases relation <;> simp [IsWord, isSeparator, Operator.symbol]
  | logic connective => cases connective <;> simp [IsWord, isSeparator, Operator.symbol]

theorem isWord_signed {magnitude : List Char} (isWord : IsWord magnitude) (negative : Bool) :
    IsWord (signed negative magnitude) := by
  cases negative with
  | false => exact isWord
  | true => exact List.forall_mem_cons.mpr ⟨rfl, isWord⟩

theorem ShownAs.isWord {value : Float} {text : List Char} (shown : ShownAs value text) :
    IsWord text := by
  cases shown with
  | nan => simp [IsWord, isSeparator]
  | infinity negative => exact isWord_signed (by simp [IsWord, isSeparator]) negative
  | @finite negative index finite =>
      apply isWord_signed
      intro sign member
      rcases (Token.shownMagnitude_signs index).1 sign member with isDigit | rfl
      · exact isSeparator_of_isAlphanum (by simp [Char.isAlphanum, isDigit])
      · rfl

/-! ### Reading words -/

def readWord (word : List Char) : ExpressionTree :=
  if word = ['_'] then .hole
  else if word = ['.', '.', '.'] then .cut
  else if word.all Char.isAlpha ∧ word ≠ ['N', 'a', 'N'] ∧ word ≠ ['i', 'n', 'f'] then
    .read (String.ofList word)
  else .constant (readShown word)

theorem readWord_of_isPlainName {name : String} (plain : IsPlainName name) :
    readWord name.toList = .read name ∧ name.toList ≠ ['n', 'o', 't'] := by
  have apart (word : String) (reserved : word ∈ ["not", "and", "or", "NaN", "inf"]) :
      name.toList ≠ word.toList := by
    intro same
    rw [String.toList_inj] at same
    exact plain.unreserved (same ▸ reserved)
  have unlike {sign : Char} (others : List Char) (other : sign.isAlpha = false) :
      name.toList ≠ sign :: others := by
    intro same
    have isLetter := plain.letters sign (same ▸ List.mem_cons_self)
    exact absurd isLetter (Bool.eq_false_iff.mp other)
  refine ⟨?_, apart "not" (by simp)⟩
  have letters : name.toList.all Char.isAlpha = true := List.all_eq_true.mpr plain.letters
  have notNaN : name.toList ≠ ['N', 'a', 'N'] := apart "NaN" (by simp)
  have notInf : name.toList ≠ ['i', 'n', 'f'] := apart "inf" (by simp)
  rw [readWord, if_neg (unlike [] rfl), if_neg (unlike ['.', '.'] rfl),
    if_pos ⟨letters, notNaN, notInf⟩, String.ofList_toList]

theorem not_isAlpha_of_isDigit {sign : Char} (isDigit : sign.isDigit = true) :
    ¬ sign.isAlpha = true := by
  intro isLetter
  simp only [Char.isAlpha, Char.isUpper, Char.isLower, Char.isDigit, Bool.or_eq_true,
    Bool.and_eq_true, decide_eq_true_eq, ge_iff_le, UInt32.le_iff_toNat_le] at isLetter isDigit
  simp at isLetter isDigit
  omega

theorem ShownAs.readWord_eq {value : Float} {text : List Char} (shown : ShownAs value text) :
    readWord text = .constant value ∧ text ≠ ['n', 'o', 't'] := by
  have back := shown.readShown_eq
  cases shown with
  | nan => exact ⟨rfl, by simp⟩
  | infinity negative => cases negative <;> exact ⟨rfl, by simp [signed]⟩
  | @finite negative index finite =>
      -- A digit tells the number from all words that are no number.
      obtain ⟨-, digit, others, shape, isDigit⟩ := Token.shownMagnitude_signs index
      have member : digit ∈ signed negative (Token.shownMagnitude index) := by
        rw [shape]
        cases negative <;> simp [signed]
      have unlike (word : List Char) (without : ∀ sign ∈ word, sign.isDigit = false) :
          signed negative (Token.shownMagnitude index) ≠ word := by
        intro same
        exact absurd isDigit (Bool.eq_false_iff.mp (without digit (same ▸ member)))
      refine ⟨?_, unlike ['n', 'o', 't'] (by simp)⟩
      have notLetters : (signed negative (Token.shownMagnitude index)).all Char.isAlpha ≠ true :=
        fun letters => not_isAlpha_of_isDigit isDigit (List.all_eq_true.mp letters digit member)
      rw [readWord, if_neg (unlike ['_'] (by simp)), if_neg (unlike ['.', '.', '.'] (by simp)),
        if_neg (fun named => notLetters named.1), back]

/-! ### Reading expressions -/

namespace ExpressionTree

/-- Reads an expression off the beginning of a text, as deep as the fuel goes. -/
def readTree : Nat → List Char → Option (ExpressionTree × List Char)
  | 0, _ => none
  | fuel + 1, text =>
      if text.head? = some '(' then
        (readTree fuel (text.drop 1)).bind fun left =>
          let symbol := takeWord (left.2.drop 1)
          (Operator.all.find? (·.symbol.toList == symbol.1)).bind fun operator =>
            (readTree fuel (symbol.2.drop 1)).map fun right =>
              (.binary operator left.1 right.1, right.2.drop 1)
      else
        let word := takeWord text
        if word.1 = ['n', 'o', 't'] then
          (readTree fuel (word.2.drop 1)).map fun operand => (.negate operand.1, operand.2)
        else some (readWord word.1, word.2)

theorem readTree_leaf {word rest : List Char} (isWord : IsWord word)
    (notNegation : word ≠ ['n', 'o', 't']) (ends : EndsWord rest) (fuel : Nat) :
    readTree (fuel + 1) (word ++ rest) = some (readWord word, rest) := by
  have unbracketed : (word ++ rest).head? ≠ some '(' := by
    cases word with
    | cons sign others =>
        intro opens
        obtain rfl : sign = '(' := by simpa using opens
        exact absurd (isWord '(' List.mem_cons_self) (by decide)
    | nil =>
        intro opens
        rcases ends '(' opens with same | same <;> exact absurd same (by decide)
  simp only [readTree, if_neg unbracketed, takeWord_append isWord ends, if_neg notNegation]

theorem readTree_negate {operand : ExpressionTree} {text rest : List Char} {fuel : Nat}
    (reads : readTree fuel text = some (operand, rest)) :
    readTree (fuel + 1) ('n' :: 'o' :: 't' :: ' ' :: text) = some (.negate operand, rest) := by
  have word : takeWord ('n' :: 'o' :: 't' :: ' ' :: text) = (['n', 'o', 't'], ' ' :: text) :=
    @takeWord_append ['n', 'o', 't'] (' ' :: text) (by simp [IsWord, isSeparator])
      (endsWord_cons (Or.inl rfl) text)
  simp [readTree, word, reads]

theorem find?_symbol (operator : Operator) :
    Operator.all.find? (·.symbol.toList == operator.symbol.toList) = some operator := by
  cases operator with
  | arithmetic operation => cases operation <;> rfl
  | comparison relation => cases relation <;> rfl
  | logic connective => cases connective <;> rfl

theorem readTree_binary {left right : ExpressionTree} {leftText rightText rest : List Char}
    {fuel : Nat} (operator : Operator)
    (readsLeft : ∀ rest, EndsWord rest → readTree fuel (leftText ++ rest) = some (left, rest))
    (readsRight : ∀ rest, EndsWord rest → readTree fuel (rightText ++ rest) = some (right, rest)) :
    readTree (fuel + 1)
        ('(' :: leftText ++ ' ' :: operator.symbol.toList ++ ' ' :: rightText ++ ')' :: rest) =
      some (.binary operator left right, rest) := by
  have first := readsLeft (' ' :: (operator.symbol.toList ++ ' ' :: (rightText ++ ')' :: rest)))
    (endsWord_cons (Or.inl rfl) _)
  have symbol := takeWord_append (isWord_symbol operator)
    (endsWord_cons (Or.inl rfl) (rightText ++ ')' :: rest))
  have second := readsRight (')' :: rest) (endsWord_cons (Or.inr rfl) _)
  simp [readTree, first, symbol, find?_symbol, second]

/-- How many levels an expression has below its first. -/
def depth : ExpressionTree → Nat
  | .negate operand => operand.depth + 1
  | .binary _ left right => max left.depth right.depth + 1
  | _ => 0

/-- A reader that goes deep enough finds the tree whose text it reads, and what follows it. -/
theorem readTree_text {tree : ExpressionTree} (plain : ∀ name ∈ tree.names, IsPlainName name)
    {fuel : Nat} (enough : tree.depth ≤ fuel) {rest : List Char} (ends : EndsWord rest) :
    readTree (fuel + 1) (tree.text.toList ++ rest) = some (tree, rest) := by
  -- The right operand is read after the left one, so the induction is for every rest of a text.
  induction tree generalizing fuel rest with
  | hole => exact @readTree_leaf ['_'] rest (by simp [IsWord, isSeparator]) (by simp) ends fuel
  | cut =>
      exact @readTree_leaf ['.', '.', '.'] rest (by simp [IsWord, isSeparator]) (by simp) ends fuel
  | constant value =>
      have shown := shownAs_shownNumber value
      obtain ⟨isValue, notNegation⟩ := shown.readWord_eq
      rw [text, readTree_leaf shown.isWord notNegation ends, isValue]
  | read name =>
      have isPlain := plain name (by simp [names])
      obtain ⟨isName, notNegation⟩ := readWord_of_isPlainName isPlain
      rw [text, readTree_leaf (isWord_of_isPlainName isPlain) notNegation ends, isName]
  | negate operand ih =>
      obtain ⟨fuel, rfl⟩ := Nat.exists_eq_add_of_le' (Nat.le_of_add_left_le enough)
      have reads := ih plain (Nat.le_of_add_le_add_right enough) ends
      rw [text, String.toList_append, List.append_assoc]
      exact readTree_negate reads
  | binary operator left right ihLeft ihRight =>
      obtain ⟨fuel, rfl⟩ := Nat.exists_eq_add_of_le' (Nat.le_of_add_left_le enough)
      have deep : max left.depth right.depth ≤ fuel := Nat.le_of_add_le_add_right enough
      have readsLeft (rest : List Char) (ends : EndsWord rest) :
          readTree (fuel + 1) (left.text.toList ++ rest) = some (left, rest) :=
        ihLeft (fun name member => plain name (List.mem_append_left _ member))
          (Nat.le_trans (Nat.le_max_left _ _) deep) ends
      have readsRight (rest : List Char) (ends : EndsWord rest) :
          readTree (fuel + 1) (right.text.toList ++ rest) = some (right, rest) :=
        ihRight (fun name member => plain name (List.mem_append_right _ member))
          (Nat.le_trans (Nat.le_max_right _ _) deep) ends
      have reads := @readTree_binary left right left.text.toList right.text.toList rest (fuel + 1)
        operator readsLeft readsRight
      simpa [text] using reads

/-- Trees that look alike are the same. -/
theorem eq_of_text_eq {first second : ExpressionTree}
    (firstPlain : ∀ name ∈ first.names, IsPlainName name)
    (secondPlain : ∀ name ∈ second.names, IsPlainName name) (same : first.text = second.text) :
    first = second := by
  have ends : EndsWord [] := by simp [EndsWord]
  have readsFirst := readTree_text firstPlain (Nat.le_max_left first.depth second.depth) ends
  have readsSecond := readTree_text secondPlain (Nat.le_max_right first.depth second.depth) ends
  rw [same, readsSecond] at readsFirst
  cases readsFirst
  rfl

end ExpressionTree

namespace Program

/-- Every variable that an expression leads to has a plain name. -/
def ReadsPlainNames (program : Program) (id : ExpressionId) : Prop :=
  ∀ reader name, program.Reaches (.expression id) (.expression reader) →
    program.expression? reader = some (.read name) → IsPlainName name

theorem ReadsPlainNames.names {program : Program} {id : ExpressionId}
    (plain : program.ReadsPlainNames id) (path : List ExpressionId) :
    ∀ name ∈ (program.treeAlong path id).names, IsPlainName name := by
  intro name member
  obtain ⟨reader, reaches, reads⟩ := reaches_read_of_mem_names member
  exact plain reader name reaches reads

theorem readsPlainNames_of_closed {program : Program} {root : ExpressionId}
    {ids : List ExpressionId} (rooted : root ∈ ids)
    (closed : ∀ part ∈ ids.map Part.expression, ∀ other ∈ program.references part,
      other ∈ ids.map Part.expression)
    (plain : ∀ id ∈ ids, ∀ name, program.expression? id = some (.read name) → IsPlainName name) :
    program.ReadsPlainNames root := by
  intro reader name reaches reads
  have member := reaches.mem_of_closed (List.mem_map_of_mem rooted) closed
  obtain ⟨id, listed, same⟩ := List.mem_map.mp member
  cases same
  exact plain reader listed name reads

/-- Expressions with plain names that are shown alike have the same number, whatever the variables
are. -/
theorem shown_alike_means_computed_alike (first second : Program)
    (firstId secondId : ExpressionId) (firstPlain : first.ReadsPlainNames firstId)
    (secondPlain : second.ReadsPlainNames secondId)
    (same : first.expressionText firstId = second.expressionText secondId) (bindings : Bindings) :
    first.evaluate bindings firstId = second.evaluate bindings secondId := by
  rw [expressionText, expressionText, expressionTextAlong_eq_text,
    expressionTextAlong_eq_text] at same
  have sameTree := ExpressionTree.eq_of_text_eq (firstPlain.names []) (secondPlain.names []) same
  rw [evaluate, evaluate, evaluateAlong_eq_number, evaluateAlong_eq_number, sameTree]

/-- A sum of one operand with itself, below which the sum comes again, and a hole.  The name that
is not plain is read nowhere in it. -/
def sharedSum : Program where
  statements := Arena.empty
  expressions := Arena.ofEntries
    [("0", .binary (.arithmetic .add) "1" "1"), ("1", .negate "2"),
      ("2", .binary (.arithmetic .multiply) "0" "3"),
      ("3", .binary (.comparison .less) "4" "5"), ("4", .read "speed"),
      ("5", .binary (.arithmetic .subtract) "6" "7"), ("6", .constant (-2.5)), ("8", .read "not")]
  lists := Arena.empty
  statementCount := 0
  expressionCount := 9
  listCount := 0

/-- The same sum with two operands, in other places. -/
def copiedSum : Program where
  statements := Arena.empty
  expressions := Arena.ofEntries
    [("5", .constant (-2.5)), ("9", .binary (.arithmetic .subtract) "5" "2"), ("1", .read "speed"),
      ("4", .binary (.comparison .less) "1" "9"),
      ("8", .binary (.arithmetic .multiply) "7" "4"),
      ("6", .binary (.arithmetic .multiply) "7" "4"), ("0", .negate "6"), ("3", .negate "8"),
      ("7", .binary (.arithmetic .add) "0" "3")]
  lists := Arena.empty
  statementCount := 0
  expressionCount := 10
  listCount := 0

theorem isPlainName_speed : IsPlainName "speed" := ⟨by simp, by simp, by simp⟩

theorem sharedSum_readsPlainNames : sharedSum.ReadsPlainNames "0" := by
  have member : "0" ∈ ["0", "1", "2", "3", "4", "5", "6", "7"] := by simp
  refine readsPlainNames_of_closed member (by decide +kernel) ?_
  intro id listed name reads
  simp only [List.mem_cons, List.not_mem_nil, or_false] at listed
  rcases listed with rfl | rfl | rfl | rfl | rfl | rfl | rfl | rfl <;> cases reads
  exact isPlainName_speed

theorem copiedSum_readsPlainNames : copiedSum.ReadsPlainNames "7" := by
  have member : "7" ∈ ["0", "1", "2", "3", "4", "5", "6", "7", "8", "9"] := by simp
  refine readsPlainNames_of_closed member (by decide +kernel) ?_
  intro id listed name reads
  simp only [List.mem_cons, List.not_mem_nil, or_false] at listed
  rcases listed with rfl | rfl | rfl | rfl | rfl | rfl | rfl | rfl | rfl | rfl <;> cases reads
  exact isPlainName_speed

theorem sums_computed_alike :
    sharedSum.ReadsPlainNames "0" ∧ copiedSum.ReadsPlainNames "7" ∧
      sharedSum.expressionText "0" =
        "(not (... * (speed < (-2.5 - _))) + not (... * (speed < (-2.5 - _))))" ∧
      sharedSum.expressionText "0" = copiedSum.expressionText "7" ∧
      ∀ bindings, sharedSum.evaluate bindings "0" = copiedSum.evaluate bindings "7" := by
  have same : sharedSum.expressionText "0" = copiedSum.expressionText "7" := by decide +kernel
  refine ⟨sharedSum_readsPlainNames, copiedSum_readsPlainNames, by decide +kernel, same, ?_⟩
  exact shown_alike_means_computed_alike sharedSum copiedSum "0" "7" sharedSum_readsPlainNames
    copiedSum_readsPlainNames same

end Program

end BlockStage

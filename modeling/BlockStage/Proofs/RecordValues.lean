import BlockStage.Pages.Column
import Mathlib.Tactic.Ring

/-!
# Values are read back from records

A record has the kinds of its values in front and the values behind them, and a value is found
by adding up the sizes of the kinds before it.  Numbers of fixed and of variable width are read
as they were written, so every value of a record that stands on one page is found at its
position, and behind the last one there is none.  The number at the end of an entry of an index
is found without reading the other values.
-/

namespace BlockStage

namespace Pages

/-! ### Parts of bytes -/

/-- A part stands in some bytes, from an offset on. -/
def HasPart (bytes : ByteArray) (offset : Nat) (part : ByteArray) : Prop :=
  ∃ front back, bytes = front ++ (part ++ back) ∧ front.size = offset

section Parts

variable {bytes part first second : ByteArray} {offset : Nat}

theorem hasPart_self (bytes : ByteArray) : HasPart bytes 0 bytes :=
  ⟨ByteArray.empty, ByteArray.empty, by simp, rfl⟩

theorem HasPart.left (has : HasPart bytes offset (first ++ second)) :
    HasPart bytes offset first := by
  obtain ⟨front, back, rfl, sized⟩ := has
  exact ⟨front, second ++ back, by rw [ByteArray.append_assoc], sized⟩

theorem HasPart.right (has : HasPart bytes offset (first ++ second)) :
    HasPart bytes (offset + first.size) second := by
  obtain ⟨front, back, rfl, rfl⟩ := has
  refine ⟨front ++ first, back, ?_, ByteArray.size_append⟩
  rw [ByteArray.append_assoc, ByteArray.append_assoc]

theorem HasPart.le_size (has : HasPart bytes offset part) : offset + part.size ≤ bytes.size := by
  obtain ⟨front, back, rfl, rfl⟩ := has
  rw [ByteArray.size_append, ByteArray.size_append]
  omega

theorem HasPart.extract (has : HasPart bytes offset part) :
    bytes.extract offset (offset + part.size) = part := by
  obtain ⟨front, back, rfl, rfl⟩ := has
  have behind := @ByteArray.extract_append_size_add front (part ++ back) 0 part.size
  rw [Nat.add_zero] at behind
  rw [behind, ByteArray.extract_append_eq_left rfl]

theorem HasPart.byteAt (has : HasPart bytes offset part) {index : Nat} (within : index < part.size) :
    byteAt bytes (offset + index) = byteAt part index := by
  have bound := has.le_size
  obtain ⟨front, back, rfl, rfl⟩ := has
  have reads : front.size + index < (front ++ (part ++ back)).size := by omega
  rw [Pages.byteAt, dif_pos reads, Pages.byteAt, dif_pos within,
    ByteArray.getElem_append_right (by omega), ByteArray.getElem_append_left (by omega)]
  simp

end Parts

@[simp]
theorem size_bytesOf (values : List UInt8) : (bytesOf values).size = values.length := rfl

theorem bytesOf_append (first second : List UInt8) :
    bytesOf (first ++ second) = bytesOf first ++ bytesOf second := by
  ext1
  simp [bytesOf, ByteArray.data_append]

theorem byteAt_bytesOf (values : List UInt8) {index : Nat} (within : index < values.length) :
    byteAt (bytesOf values) index = values[index].toNat := by
  rw [byteAt, dif_pos (by simpa using within)]
  rfl

theorem HasPart.byteAt_single {bytes : ByteArray} {offset : Nat} {byte : UInt8}
    (has : HasPart bytes offset (bytesOf [byte])) : Pages.byteAt bytes offset = byte.toNat := by
  have read := @HasPart.byteAt _ _ _ has 0 (by simp)
  rwa [Nat.add_zero, byteAt_bytesOf _ (by simp)] at read

/-! ### Numbers of fixed width -/

theorem patterns_eq (width : Nat) : patterns width = 256 ^ width := by
  rw [patterns, Nat.one_shiftLeft, Nat.pow_mul]

/-- What has been read of a number once some of its bytes have been read. -/
theorem foldl_numberBytes {bytes : ByteArray} {offset width value : Nat}
    (has : HasPart bytes offset (numberBytes width value)) {count : Nat} (few : count ≤ width) :
    (List.range count).foldl (fun read index => read * 256 + byteAt bytes (offset + index)) 0 =
      value / 256 ^ (width - count) % 256 ^ count := by
  induction count with
  | zero => simp [Nat.mod_one]
  | succ count ih =>
      have within : count < (numberBytes width value).size := by simp [numberBytes]; omega
      have shifted : value >>> (8 * (width - 1 - count)) = value / 256 ^ (width - (count + 1)) := by
        rw [Nat.shiftRight_eq_div_pow, Nat.pow_mul]
        congr 2
        omega
      have byte : byteAt bytes (offset + count) = value / 256 ^ (width - (count + 1)) % 256 := by
        rw [has.byteAt within, numberBytes, byteAt_bytesOf _ (by simpa [numberBytes] using within)]
        simp [shifted]
      have next : value / 256 ^ (width - count) = value / 256 ^ (width - (count + 1)) / 256 := by
        rw [Nat.div_div_eq_div_mul, ← Nat.pow_succ]
        congr 2
        omega
      rw [List.range_succ, List.foldl_append, List.foldl_cons, List.foldl_nil, ih (by omega), byte,
        next, Nat.pow_succ', Nat.mod_mul]
      omega

/-- A number that fits into its bytes is read from them. -/
theorem numberAt_of_hasPart {bytes : ByteArray} {offset width value : Nat}
    (has : HasPart bytes offset (numberBytes width value)) (fits : value < patterns width) :
    numberAt width bytes offset = value := by
  rw [numberAt, foldl_numberBytes has (Nat.le_refl width), Nat.sub_self, Nat.pow_zero, Nat.div_one]
  exact Nat.mod_eq_of_lt (patterns_eq width ▸ fits)

/-! ### Numbers of variable width -/

theorem length_leadingBytes_le (left value : Nat) : (leadingBytes left value).length ≤ left := by
  induction left generalizing value with
  | zero => simp [leadingBytes]
  | succ left ih =>
      rw [leadingBytes]
      split
      · simp
      · have shorter := ih (value / 128)
        simp only [List.length_append, List.length_singleton]
        omega

theorem varintFrom_of_more {bytes : ByteArray} {offset byte : Nat} (small : byte < 128)
    (read : byteAt bytes offset = 128 + byte) (left value : Nat) :
    varintFrom bytes (left + 1) value offset =
      varintFrom bytes left (value * 128 + byte) (offset + 1) := by
  rw [varintFrom, read, if_neg (by omega), Nat.add_sub_cancel_left]

/-- Reading the bytes in front of the last one adds their value to what was read before. -/
theorem varintFrom_leadingBytes {bytes : ByteArray} {offset : Nat} {most value : Nat}
    (small : value < 128 ^ most) (has : HasPart bytes offset (bytesOf (leadingBytes most value)))
    (left before : Nat) :
    varintFrom bytes (left + (leadingBytes most value).length) before offset =
      varintFrom bytes left (before * 128 ^ (leadingBytes most value).length + value)
        (offset + (leadingBytes most value).length) := by
  induction most generalizing value left with
  | zero =>
      obtain rfl : value = 0 := by simpa using small
      simp [leadingBytes]
  | succ most ih =>
      rw [leadingBytes] at has ⊢
      by_cases none : value = 0
      · simp [none]
      · rw [if_neg none, bytesOf_append] at has
        have fewer : value / 128 < 128 ^ most := by
          rw [Nat.pow_succ] at small
          exact Nat.div_lt_of_lt_mul (by omega)
        have byte : byteAt bytes (offset + (leadingBytes most (value / 128)).length) =
            128 + value % 128 := by
          rw [← size_bytesOf, has.right.byteAt_single, UInt8.toNat_ofNat']
          omega
        rw [if_neg none, List.length_append, List.length_singleton, Nat.add_comm _ 1,
          ← Nat.add_assoc, ih fewer has.left, varintFrom_of_more (Nat.mod_lt _ (by decide)) byte]
        congr 1
        · rw [Nat.pow_add, Nat.pow_one, Nat.add_mul, Nat.mul_assoc, Nat.mul_comm _ 128]
          omega
        · omega

/-- What has been read of a number of nine bytes once some of them have been read. -/
theorem varintFrom_nine {bytes : ByteArray} {offset value : Nat}
    (reads : ∀ index < 8, byteAt bytes (offset + index) = 128 + (value >>> (57 - 7 * index)) % 128)
    (fits : value < 2 ^ 64) {count : Nat} (few : count ≤ 8) :
    varintFrom bytes 8 0 offset =
      varintFrom bytes (8 - count) (value / 2 ^ (64 - 7 * count)) (offset + count) := by
  induction count with
  | zero => rw [Nat.mul_zero, Nat.sub_zero, Nat.div_eq_of_lt fits, Nat.add_zero]
  | succ count ih =>
      have read := reads count (by omega)
      have left : 8 - count = 8 - (count + 1) + 1 := by omega
      have places : 64 - 7 * count = 57 - 7 * count + 7 := by omega
      have fewerPlaces : 64 - 7 * (count + 1) = 57 - 7 * count := by omega
      rw [ih (by omega), left, varintFrom_of_more (Nat.mod_lt _ (by decide)) read, places,
        fewerPlaces, Nat.pow_add, ← Nat.div_div_eq_div_mul, Nat.shiftRight_eq_div_pow]
      congr 1
      omega

/-- A number of at most eight bytes in variable width is read as it was written. -/
theorem varintAt_of_hasPart {bytes : ByteArray} {offset value : Nat}
    (has : HasPart bytes offset (varintBytes value)) (fits : value < 2 ^ 64) :
    varintAt bytes offset = (value, offset + (varintBytes value).size) := by
  have seven : patterns 7 = 2 ^ 56 := by decide
  rw [varintBytes] at has ⊢
  rw [varintAt]
  by_cases small : value < patterns 7
  · rw [if_pos small] at has ⊢
    rw [bytesOf_append] at has
    have leading : value / 128 < 128 ^ 7 := by omega
    have few := length_leadingBytes_le 7 (value / 128)
    have last : byteAt bytes (offset + (leadingBytes 7 (value / 128)).length) = value % 128 := by
      rw [← size_bytesOf, has.right.byteAt_single, UInt8.toNat_ofNat']
      omega
    obtain ⟨left, rest⟩ : ∃ left, 8 = left + 1 + (leadingBytes 7 (value / 128)).length :=
      ⟨7 - (leadingBytes 7 (value / 128)).length, by omega⟩
    rw [rest, varintFrom_leadingBytes leading has.left, varintFrom, last,
      if_pos (Nat.mod_lt _ (by decide))]
    simp only [size_bytesOf, List.length_append, List.length_singleton, Prod.mk.injEq]
    omega
  · rw [if_neg small] at has ⊢
    rw [bytesOf_append] at has
    have reads : ∀ index < 8, byteAt bytes (offset + index) =
        128 + (value >>> (57 - 7 * index)) % 128 := by
      intro index within
      rw [has.left.byteAt (by simpa using within), byteAt_bytesOf _ (by simpa using within)]
      simp
      omega
    have last : byteAt bytes (offset + 8) = value % 256 := by
      have read := has.right.byteAt_single
      simpa using read
    rw [varintFrom_nine reads fits (Nat.le_refl 8), Nat.sub_self, varintFrom, last]
    simp only [size_bytesOf, List.length_append, List.length_singleton, List.length_map,
      List.length_range, Prod.mk.injEq, Nat.reduceMul, Nat.reduceSub, Nat.reducePow, and_true]
    omega

/-! ### Values -/

namespace Value

/-- A value that a record can hold: a whole number has eight bytes, the bits of a real number
stand for one, and the kind of a text or of bytes has four bytes. -/
def IsStorable : Value → Prop
  | .null => True
  | .whole value => -2 ^ 63 ≤ value ∧ value < 2 ^ 63
  | .real bits => bits < 2 ^ 64 ∧ isNoNumber bits = false
  | .text bytes => bytes.size * 2 + 13 < 2 ^ 32
  | .blob bytes => bytes.size * 2 + 12 < 2 ^ 32

theorem unsigned_lt (width : Nat) (value : Int) : unsigned width value < patterns width := by
  have positive : (0 : Int) < patterns width := by
    rw [patterns_eq]
    exact_mod_cast Nat.pow_pos (by decide)
  have small := Int.emod_lt_of_pos value positive
  rw [unsigned]
  omega

/-- A whole number other than nought and one has a kind in whose bytes it can be written. -/
theorem wholeKind_cases {value : Int} (storable : (whole value).IsStorable) :
    (value = 0 ∧ wholeKind value = 8) ∨ (value = 1 ∧ wholeKind value = 9) ∨
      (wholeKind value ∈ [1, 2, 3, 4, 5, 6] ∧
        signed (kindSize (wholeKind value)) (unsigned (kindSize (wholeKind value)) value) =
          value) := by
  unfold wholeKind
  split
  · rename_i none
    exact .inl ⟨none, rfl⟩
  · split
    · rename_i one
      exact .inr (.inl ⟨one, rfl⟩)
    · refine .inr (.inr ?_)
      split
      · rename_i kind found
        have isKind := List.mem_of_find?_eq_some found
        have fits := List.find?_some found
        exact ⟨List.mem_append_left [6] isKind, by simpa using fits⟩
      · refine ⟨by simp, ?_⟩
        have eight : kindSize 6 = 8 := rfl
        have all : patterns 8 = 2 ^ 64 := by decide
        obtain ⟨above, below⟩ := storable
        rw [eight, signed, unsigned, all]
        split <;> omega

theorem wholeKind_mem {value : Int} (storable : (whole value).IsStorable) :
    wholeKind value ∈ [1, 2, 3, 4, 5, 6, 8, 9] := by
  rcases wholeKind_cases storable with ⟨-, same⟩ | ⟨-, same⟩ | ⟨isKind, -⟩
  · simp [same]
  · simp [same]
  · exact List.mem_append_left [8, 9] isKind

theorem kind_lt {value : Value} (storable : value.IsStorable) : value.kind < 2 ^ 32 := by
  cases value with
  | null => exact Nat.pow_pos (by decide)
  | whole number =>
      have isKind := wholeKind_mem storable
      simp only [List.mem_cons, List.not_mem_nil, or_false] at isKind
      rw [kind]
      omega
  | real bits => exact Nat.lt_of_lt_of_le (by decide : 7 < 8) (Nat.le_of_lt (by decide))
  | text content => exact storable
  | blob content => exact storable

theorem kindSize_kind (value : Value) : kindSize value.kind = value.bytes.size := by
  cases value with
  | null => rfl
  | whole value => simp [kind, bytes, numberBytes]
  | real bits => simp [kind, bytes, numberBytes, kindSize]
  | text content =>
      rw [kind, kindSize, if_neg (by omega), if_neg (by omega), if_neg (by omega),
        if_neg (by omega), bytes]
      omega
  | blob content =>
      rw [kind, kindSize, if_neg (by omega), if_neg (by omega), if_neg (by omega),
        if_neg (by omega), bytes]
      omega

theorem ofBytes_of_hasPart {value : Value} (storable : value.IsStorable) {bytes : ByteArray}
    {offset : Nat} (has : HasPart bytes offset value.bytes) :
    ofBytes value.kind bytes offset = value := by
  cases value with
  | null => rfl
  | whole number =>
      rcases wholeKind_cases storable with ⟨rfl, -⟩ | ⟨rfl, -⟩ | ⟨isKind, fits⟩
      · rfl
      · rfl
      · have read := numberAt_of_hasPart has (unsigned_lt _ _)
        simp only [kind, ofBytes, read, fits]
        simp only [List.mem_cons, List.not_mem_nil, or_false] at isKind
        rw [if_neg (by omega), if_pos (by omega)]
  | real bits =>
      obtain ⟨small, isNumber⟩ := storable
      have eight : patterns 8 = 2 ^ 64 := by decide
      have read := numberAt_of_hasPart has (eight ▸ small)
      simp [kind, ofBytes, read, isNumber]
  | text content =>
      have size : kindSize (content.size * 2 + 13) = content.size := kindSize_kind (.text content)
      simp only [kind, ofBytes, size]
      rw [if_neg (by omega), if_neg (by omega), if_neg (by omega), if_neg (by omega),
        if_neg (by omega), if_neg (by omega), if_neg (by omega)]
      exact congrArg text has.extract
  | blob content =>
      have size : kindSize (content.size * 2 + 12) = content.size := kindSize_kind (.blob content)
      simp only [kind, ofBytes, size]
      rw [if_neg (by omega), if_neg (by omega), if_neg (by omega), if_neg (by omega),
        if_neg (by omega), if_neg (by omega), if_pos (by omega)]
      exact congrArg blob has.extract

end Value

/-! ### Records -/

theorem joined_cons (piece : ByteArray) (pieces : List ByteArray) :
    joined (piece :: pieces) = piece ++ joined pieces := by
  have behind (front : ByteArray) (pieces : List ByteArray) :
      pieces.foldl (· ++ ·) front = front ++ joined pieces := by
    induction pieces generalizing front with
    | nil => exact ByteArray.append_empty.symm
    | cons piece later ih =>
        rw [joined, List.foldl_cons, List.foldl_cons, ih, ih, ByteArray.empty_append,
          ByteArray.append_assoc]
  rw [joined, List.foldl_cons, behind, ByteArray.empty_append]

theorem joined_append (first second : List ByteArray) :
    joined (first ++ second) = joined first ++ joined second := by
  induction first with
  | nil => exact ByteArray.empty_append.symm
  | cons piece rest ih => rw [List.cons_append, joined_cons, ih, joined_cons, ByteArray.append_assoc]

/-- The kinds of some values, as they stand in the head of a record. -/
def kindsOf (values : List Value) : ByteArray :=
  joined (values.map fun value => varintBytes value.kind)

/-- Some values, as they stand behind the head of a record. -/
def bodiesOf (values : List Value) : ByteArray := joined (values.map Value.bytes)

theorem kindsOf_cons (value : Value) (values : List Value) :
    kindsOf (value :: values) = varintBytes value.kind ++ kindsOf values :=
  joined_cons _ _

theorem bodiesOf_cons (value : Value) (values : List Value) :
    bodiesOf (value :: values) = value.bytes ++ bodiesOf values :=
  joined_cons _ _

theorem kindsOf_append (first second : List Value) :
    kindsOf (first ++ second) = kindsOf first ++ kindsOf second := by
  rw [kindsOf, List.map_append, joined_append, kindsOf, kindsOf]

theorem bodiesOf_append (first second : List Value) :
    bodiesOf (first ++ second) = bodiesOf first ++ bodiesOf second := by
  rw [bodiesOf, List.map_append, joined_append, bodiesOf, bodiesOf]

theorem size_varintBytes_pos (value : Nat) : 0 < (varintBytes value).size := by
  unfold varintBytes
  split <;> simp

theorem size_varintBytes {value : Nat} (small : value < 16384) :
    (varintBytes value).size = if value < 128 then 1 else 2 := by
  have seven : patterns 7 = 2 ^ 56 := by decide
  rw [varintBytes, if_pos (by omega), size_bytesOf, List.length_append, List.length_singleton,
    leadingBytes]
  by_cases one : value < 128
  · rw [if_pos (by omega), if_pos one, List.length_nil]
  · have rest : value / 128 / 128 = 0 := by omega
    rw [if_neg (by omega), if_neg one, rest, List.length_append]
    rfl

section Head

variable {bytes : ByteArray} {finish : Nat}

theorem clippedVarint_of_hasPart {offset : Nat} {value : Nat} (small : value < 2 ^ 32)
    (has : HasPart bytes offset (varintBytes value)) :
    clippedVarint bytes offset = (value, offset + (varintBytes value).size) := by
  have four : patterns 4 = 2 ^ 32 := by decide
  rw [clippedVarint, varintAt_of_hasPart has (by omega)]
  simp only [Prod.mk.injEq, and_true]
  omega

theorem headFrom_here {offset next kind : Nat} (within : offset < finish)
    (read : clippedVarint bytes offset = (kind, next)) (start : Nat) :
    headFrom bytes finish 0 offset start = ⟨next, start + kindSize kind, some (kind, start)⟩ := by
  rw [headFrom, if_pos within, read]

theorem headFrom_further {offset next kind : Nat} (within : offset < finish)
    (read : clippedVarint bytes offset = (kind, next)) (left start : Nat) :
    headFrom bytes finish (left + 1) offset start =
      headFrom bytes finish left next (start + kindSize kind) := by
  rw [headFrom, if_pos within, read]

/-- Reading the kinds up to one of them finds it, and adds up the sizes of the values. -/
theorem headFrom_of_getElem? {values : List Value}
    (storable : ∀ value ∈ values, value.IsStorable) {offset : Nat}
    (has : HasPart bytes offset (kindsOf values))
    (ends : finish = offset + (kindsOf values).size) {position : Nat} {value : Value}
    (found : values[position]? = some value) (start : Nat) :
    ∃ next, headFrom bytes finish position offset start =
        ⟨next, start + (bodiesOf (values.take position)).size + value.bytes.size,
          some (value.kind, start + (bodiesOf (values.take position)).size)⟩ ∧
      next ≤ finish ∧ (next = finish → values.drop (position + 1) = []) := by
  induction values generalizing offset start position with
  | nil => cases found
  | cons first rest ih =>
      rw [kindsOf_cons] at has ends
      have pos := size_varintBytes_pos first.kind
      have read := clippedVarint_of_hasPart (Value.kind_lt (storable first (by simp))) has.left
      rw [ByteArray.size_append] at ends
      cases position with
      | zero =>
          obtain rfl : first = value := Option.some.inj found
          refine ⟨offset + (varintBytes first.kind).size, ?_, by omega, ?_⟩
          · rw [headFrom_here (by omega) read, Value.kindSize_kind]
            rfl
          · intro atEnd
            cases rest with
            | nil => rfl
            | cons other later =>
                have more := size_varintBytes_pos other.kind
                rw [kindsOf_cons, ByteArray.size_append] at ends
                omega
      | succ position =>
          obtain ⟨next, heads, within, last⟩ :=
            ih (fun other isOther => storable other (List.mem_cons_of_mem _ isOther)) has.right
              (by omega) found (start + first.bytes.size)
          refine ⟨next, ?_, within, last⟩
          rw [headFrom_further (by omega) read, Value.kindSize_kind, heads, List.take_succ_cons,
            bodiesOf_cons, ByteArray.size_append, Nat.add_assoc start]

/-- Reading more kinds than there are leads to the end of the head. -/
theorem headFrom_of_length_le {values : List Value}
    (storable : ∀ value ∈ values, value.IsStorable) {offset : Nat}
    (has : HasPart bytes offset (kindsOf values))
    (ends : finish = offset + (kindsOf values).size) {position : Nat}
    (behind : values.length ≤ position) (start : Nat) :
    headFrom bytes finish position offset start =
      ⟨finish, start + (bodiesOf values).size, none⟩ := by
  induction values generalizing offset start position with
  | nil =>
      obtain rfl : finish = offset := ends
      cases position <;> rw [headFrom, if_neg (Nat.lt_irrefl _)] <;> rfl
  | cons value rest ih =>
      cases position with
      | zero => exact absurd behind (Nat.not_succ_le_zero _)
      | succ position =>
          rw [kindsOf_cons] at has ends
          have pos := size_varintBytes_pos value.kind
          have read := clippedVarint_of_hasPart (Value.kind_lt (storable value (by simp))) has.left
          rw [ByteArray.size_append] at ends
          rw [headFrom_further (by omega) read, Value.kindSize_kind,
            ih (fun other isOther => storable other (List.mem_cons_of_mem _ isOther)) has.right
              (by omega) (Nat.le_of_succ_le_succ behind),
            bodiesOf_cons, ByteArray.size_append, Nat.add_assoc]

end Head

theorem size_kindsOf_pos {values : List Value} (nonempty : values ≠ []) :
    0 < (kindsOf values).size := by
  obtain ⟨value, rest, rfl⟩ := List.exists_cons_of_ne_nil nonempty
  have first := size_varintBytes_pos value.kind
  rw [kindsOf_cons, ByteArray.size_append]
  omega

/-- Where things stand in the record of some values: the size of the head is written at its
beginning, then come the kinds, and behind the head the values. -/
structure RecordParts (values : List Value) (head : Nat) : Prop where
  read : clippedVarint (recordBytes values) 0 = (head, (varintBytes head).size)
  counts : head = (varintBytes head).size + (kindsOf values).size
  kinds : HasPart (recordBytes values) (varintBytes head).size (kindsOf values)
  bodies : HasPart (recordBytes values) head (bodiesOf values)
  size : (recordBytes values).size = head + (bodiesOf values).size

theorem exists_recordParts {values : List Value} (few : (kindsOf values).size < 16382) :
    ∃ head, RecordParts values head := by
  obtain ⟨head, shape, counts, small⟩ : ∃ head,
      recordBytes values = varintBytes head ++ (kindsOf values ++ bodiesOf values) ∧
        head = (varintBytes head).size + (kindsOf values).size ∧ head < 16384 := by
    refine ⟨if (kindsOf values).size + 1 < 128 then (kindsOf values).size + 1
      else (kindsOf values).size + 2, ByteArray.append_assoc, ?_⟩
    split
    · rw [size_varintBytes (by omega), if_pos (by omega)]
      omega
    · rw [size_varintBytes (by omega), if_neg (by omega)]
      omega
  have whole := hasPart_self (recordBytes values)
  rw [shape] at whole
  have read := clippedVarint_of_hasPart (by omega) whole.left
  have kinds := whole.right.left
  have bodies := whole.right.right
  rw [Nat.zero_add, ← shape] at read kinds bodies
  refine ⟨head, read, counts, kinds, counts ▸ bodies, ?_⟩
  rw [shape, ByteArray.size_append, ByteArray.size_append]
  omega

/-- The record of a cell that stands on its page in full has each of its values at its position,
and none behind them. -/
theorem Volume.valueAt?_of_record {values : List Value} (nonempty : values ≠ [])
    (storable : ∀ value ∈ values, value.IsStorable) (few : (kindsOf values).size < 16382)
    {page : Page} {cell : Cell}
    (stands : page.data.extract cell.start (cell.start + cell.kept) = recordBytes values)
    (complete : cell.size = (recordBytes values).size) (volume : Volume) (position : Nat) :
    volume.valueAt? page cell position = some values[position]? := by
  obtain ⟨head, read, counts, kinds, bodies, size⟩ := exists_recordParts few
  have pos := size_kindsOf_pos nonempty
  simp only [Volume.valueAt?, stands, read]
  rw [if_pos (by omega)]
  simp only
  rw [if_neg (by omega), if_neg (by omega)]
  cases found : values[position]? with
  | none =>
      have behind := List.getElem?_eq_none_iff.mp found
      rw [headFrom_of_length_le storable kinds counts behind]
      simp [complete, size]
  | some value =>
      obtain ⟨next, heads, beforeEnd, last⟩ :=
        headFrom_of_getElem? storable kinds counts found head
      have parts : bodiesOf values = bodiesOf (values.take position) ++
          (value.bytes ++ bodiesOf (values.drop (position + 1))) := by
        obtain ⟨within, rfl⟩ := List.getElem?_eq_some_iff.mp found
        rw [← bodiesOf_cons, ← bodiesOf_append, List.getElem_cons_drop, List.take_append_drop]
      have total := congrArg ByteArray.size parts
      rw [ByteArray.size_append, ByteArray.size_append] at total
      rw [parts] at bodies
      rw [heads, if_neg]
      · simp only
        rw [if_pos (by omega), Value.ofBytes_of_hasPart
          (storable value (List.mem_of_getElem? found)) bodies.right.left]
      · have ends : next = head → (bodiesOf (values.drop (position + 1))).size = 0 := by
          intro atEnd
          rw [last atEnd]
          rfl
        simp only [Bool.or_eq_true, Bool.and_eq_true, decide_eq_true_eq, bne_iff_ne]
        omega

/-- The entry of an index ends with the number of its row, which is found from the end. -/
theorem Volume.rowNumber?_of_entry {values : List Value} (nonempty : values ≠ []) {number : Int}
    (storable : (Value.whole number).IsStorable)
    (few : (kindsOf (values ++ [.whole number])).size < 16382) :
    Volume.rowNumber? (recordBytes (values ++ [.whole number])) = some number := by
  obtain ⟨head, read, counts, kinds, bodies, size⟩ := exists_recordParts few
  have lastKind : kindsOf [.whole number] = varintBytes (Value.wholeKind number) :=
    ByteArray.empty_append
  have lastBody : bodiesOf [.whole number] = (Value.whole number).bytes := ByteArray.empty_append
  have isKind := Value.wholeKind_mem storable
  simp only [List.mem_cons, List.not_mem_nil, or_false] at isKind
  have single : (varintBytes (Value.wholeKind number)).size = 1 := by
    rw [size_varintBytes (by omega), if_pos (by omega)]
  have sizePos := size_varintBytes_pos head
  have kindsPos := size_kindsOf_pos nonempty
  rw [kindsOf_append, lastKind] at kinds counts
  rw [bodiesOf_append, lastBody] at bodies size
  rw [ByteArray.size_append] at counts size
  have kind := clippedVarint_of_hasPart (by omega) kinds.right
  have before : head - 1 = (varintBytes head).size + (kindsOf values).size := by omega
  have bodySize : kindSize (Value.wholeKind number) = (Value.whole number).bytes.size :=
    Value.kindSize_kind (.whole number)
  have body := Value.ofBytes_of_hasPart storable bodies.right
  have start : (recordBytes (values ++ [.whole number])).size -
      kindSize (Value.wholeKind number) = head + (bodiesOf values).size := by omega
  simp only [Volume.rowNumber?, read, before, kind]
  rw [if_neg (by omega), if_neg (by omega), start]
  rw [Value.kind] at body
  simp only [body]

end Pages

end BlockStage

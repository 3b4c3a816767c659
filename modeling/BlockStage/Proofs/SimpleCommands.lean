import BlockStage.Proofs.ByteOrder
import BlockStage.Query.CommandGrammar
import BlockStage.Store.RowKeeper

/-!
# What simple commands mean

The commands that a store gives are texts in a large language, but they have a simple form:
they concern one table and compare columns with values that are given along.  This file says
what commands of this form mean.  A query gives the rows that fulfil its condition, in the
order it asks for, and in any order if it asks for none.  A new row is added, or an old row
with the same key is changed if the command allows it.  A removal takes the rows away that
fulfil its condition.  The four commands of a store are of this form.
-/

namespace BlockStage

open Pages (Value)

/-! ### Bytes -/

theorem toList_eq (bytes : ByteArray) : bytes.toList = bytes.data.toList := by
  have loop : ∀ index before, ByteArray.toList.loop bytes index before =
      before.reverse ++ bytes.data.toList.drop index := by
    intro index before
    fun_induction ByteArray.toList.loop bytes index before with
    | case1 index before inside ih =>
        have within : index < bytes.data.toList.length := inside
        have byte : bytes.get! index = bytes.data.toList[index] :=
          getElem!_pos bytes.data index inside
        rw [ih, List.drop_eq_getElem_cons within, byte]
        simp
    | case2 index before outside =>
        have behind : bytes.data.toList.length ≤ index := Nat.le_of_not_lt outside
        rw [List.drop_eq_nil_of_le behind, List.append_nil]
  rw [ByteArray.toList, loop]
  rfl

theorem compareBytes_cases (first second : List UInt8) :
    (Query.compareBytes first second = .lt ∧ first < second) ∨
      (Query.compareBytes first second = .eq ∧ first = second) ∨
      (Query.compareBytes first second = .gt ∧ second < first) := by
  fun_induction Query.compareBytes first second with
  | case1 => exact .inr (.inl ⟨rfl, rfl⟩)
  | case2 => exact .inl ⟨rfl, List.nil_lt_cons _ _⟩
  | case3 => exact .inr (.inr ⟨rfl, List.nil_lt_cons _ _⟩)
  | case4 first firsts second seconds less =>
      exact .inl ⟨rfl, List.cons_lt_cons_iff.mpr (.inl less)⟩
  | case5 first firsts second seconds _ greater =>
      exact .inr (.inr ⟨rfl, List.cons_lt_cons_iff.mpr (.inl greater)⟩)
  | case6 first firsts second seconds notLess notGreater ih =>
      obtain rfl : first = second :=
        UInt8.le_antisymm (UInt8.not_lt.mp notGreater) (UInt8.not_lt.mp notLess)
      simpa [List.cons_lt_cons_iff] using ih

/-! ### Rows -/

/-- What can stand in a column of texts that takes no null: a text, or bytes that are kept as
they are. -/
inductive Datum where
  | text (bytes : ByteArray)
  | blob (bytes : ByteArray)

namespace Datum

def ofText (content : String) : Datum := .text content.toUTF8

def value : Datum → Value
  | .text bytes => .text bytes
  | .blob bytes => .blob bytes

def size : Datum → Nat
  | .text bytes => bytes.size
  | .blob bytes => bytes.size

/-- What a datum is ordered by: texts come before bytes, and both are compared byte by
byte. -/
def rank : Datum → List UInt8
  | .text bytes => 0 :: bytes.data.toList
  | .blob bytes => 1 :: bytes.data.toList

theorem rank_injective : Function.Injective rank := by
  intro first second same
  cases first <;> cases second <;> simp_all [rank, ByteArray.ext_iff]

instance : DecidableEq Datum := fun first second =>
  decidable_of_iff (first.rank = second.rank) rank_injective.eq_iff

/-- In a file that keeps texts in UTF-8, data compare as their ranks do. -/
theorem compare_cases (first second : Datum) :
    (Value.compare .utf8 .binary first.value second.value = .lt ∧ first.rank < second.rank) ∨
      (Value.compare .utf8 .binary first.value second.value = .eq ∧ first = second) ∨
      (Value.compare .utf8 .binary first.value second.value = .gt ∧ second.rank < first.rank) := by
  have bytewise : Value.compare .utf8 .binary first.value second.value =
      Query.compareBytes first.rank second.rank := by
    cases first <;> cases second <;>
      simp [value, rank, Value.compare, Query.Collation.compare, Query.Collation.comparePlain,
        toList_eq, Query.compareBytes]
  rw [bytewise, ← rank_injective.eq_iff]
  exact compareBytes_cases first.rank second.rank

theorem ofText_injective : Function.Injective ofText := by
  intro first second same
  have bytes : first.toUTF8 = second.toUTF8 := by
    simpa [ofText] using same
  exact String.toByteArray_inj.mp bytes

@[simp]
theorem value_ofText (content : String) : (ofText content).value = .ofText content := rfl

end Datum

/-- The columns of the table of programs. -/
inductive TableColumn where
  | key
  | content
  | digest
  | moment
deriving DecidableEq

def TableColumn.ofName? : String → Option TableColumn
  | "key" => some .key
  | "blob" => some .content
  | "content_hash" => some .digest
  | "updated_at" => some .moment
  | _ => none

/-- A row of the table of programs. -/
structure ProgramRow where
  key : Datum
  content : Datum
  digest : Datum
  moment : Datum
deriving DecidableEq

namespace ProgramRow

def datum (row : ProgramRow) : TableColumn → Datum
  | .key => row.key
  | .content => row.content
  | .digest => row.digest
  | .moment => row.moment

def set (row : ProgramRow) (datum : Datum) : TableColumn → ProgramRow
  | .key => { row with key := datum }
  | .content => { row with content := datum }
  | .digest => { row with digest := datum }
  | .moment => { row with moment := datum }

/-- The row that has some values in some columns.  Only the moment may be left out; it is the
present one then. -/
def ofColumns? (now : Datum) (given : List (TableColumn × Datum)) : Option ProgramRow := do
  some { key := ← given.lookup .key
         content := ← given.lookup .content
         digest := ← given.lookup .digest
         moment := (given.lookup .moment).getD now }

end ProgramRow

/-! ### Commands -/

/-- What a value in a simple command refers to. -/
inductive Term where
  /-- A value that is given with the command. -/
  | parameter (number : Nat)
  /-- A column of the row at hand. -/
  | stored (column : TableColumn)
  /-- A column of the row that was to be added. -/
  | excluded (column : TableColumn)
  | now
deriving DecidableEq

inductive Condition where
  | equal (first second : Term)
  | unequal (first second : Term)
deriving DecidableEq

/-- What a query gives in a column. -/
inductive Output where
  | datum (term : Term)
  /-- The number of bytes in a column of the row. -/
  | size (column : TableColumn)
deriving DecidableEq

/-- A command of a simple form. -/
inductive SimpleCommand where
  /-- The rows that fulfil a condition, ascending by a column. -/
  | find (outputs : List Output) (condition : Option Condition) (order : Option TableColumn)
  /-- Adds a row, or changes the one with the same key if a condition holds. -/
  | put (columns : List TableColumn) (values : List Term)
      (assignments : List (TableColumn × Term)) (condition : Option Condition)
  /-- Removes the rows that fulfil a condition. -/
  | remove (condition : Option Condition)
deriving DecidableEq

def excludedName : String := "excluded"

/-- The term of an expression.  Only a command that has been refused a row can refer to it. -/
def Term.ofExpression? (hasExcluded : Bool) : Query.Expression → Option Term
  | .parameter number => some (.parameter number)
  | .moment "current_timestamp" => some .now
  | .name none column false => (TableColumn.ofName? column).map .stored
  | .name (some table) column false =>
      if table = RowKeeper.tableName then (TableColumn.ofName? column).map .stored
      else if table = excludedName ∧ hasExcluded then (TableColumn.ofName? column).map .excluded
      else none
  | _ => none

def Condition.ofExpression? (hasExcluded : Bool) : Query.Expression → Option Condition
  | .binary .equal first second => do
      some (.equal (← Term.ofExpression? hasExcluded first) (← Term.ofExpression? hasExcluded second))
  | .binary .unequal first second => do
      some (.unequal (← Term.ofExpression? hasExcluded first)
        (← Term.ofExpression? hasExcluded second))
  | _ => none

def Output.ofColumn? : Query.ResultColumn → Option Output
  | .value (.call "length" [.cast (.name none column false) .blob]
      (.manner false false [] none none)) _ => (TableColumn.ofName? column).map .size
  | .value expression _ => (Term.ofExpression? false expression).map .datum
  | .all _ => none

namespace SimpleCommand

/-- The condition of a command, which may have none. -/
def condition? (hasExcluded : Bool) : Option Query.Expression → Option (Option Condition)
  | none => some none
  | some expression => (Condition.ofExpression? hasExcluded expression).map some

/-- The change of a column, which is not the key. -/
def assignment? : Query.Assignment → Option (TableColumn × Term)
  | ⟨[name], value⟩ => do
      let column ← TableColumn.ofName? name
      if column = .key then none else some (column, ← Term.ofExpression? true value)
  | _ => none

def find? (order : Option TableColumn) : Query.Request → Option SimpleCommand
  | .select false columns [.source (.table none table) none ⟨false, false, false⟩ none []] condition
      [] none [] => do
      if table = RowKeeper.tableName then
        some (.find (← columns.mapM Output.ofColumn?) (← condition? false condition) order)
      else none
  | _ => none

/-- The simple form of a command. -/
def ofStatement? : Query.Statement → Option SimpleCommand
  | .query (.ordered query [.term (.name none column false) false none] none none) => do
      find? (some (← TableColumn.ofName? column)) query
  | .query query => find? none query
  | .insert ⟨table, columns, some (.values [values]), none,
      [⟨[.term (.name none "key" false) false none], none, some assignments, condition⟩]⟩ => do
      if table = RowKeeper.tableName then
        some (.put (← columns.mapM TableColumn.ofName?)
          (← values.mapM (Term.ofExpression? false)) (← assignments.mapM assignment?)
          (← condition? true condition))
      else none
  | .delete ⟨table, none, condition⟩ => do
      if table = RowKeeper.tableName then some (.remove (← condition? false condition)) else none
  | _ => none

/-- The simple form of a command that is given as a text. -/
def ofText? (text : String) : Option SimpleCommand :=
  (Query.Statement.ofText? text).bind ofStatement?

end SimpleCommand

/-! ### Meaning -/

/-- What terms can refer to. -/
structure Surrounding where
  now : Datum
  parameters : List Datum
  row : Option ProgramRow := none
  excluded : Option ProgramRow := none

def Term.datum? (surrounding : Surrounding) : Term → Option Datum
  | .parameter number => if number = 0 then none else surrounding.parameters[number - 1]?
  | .stored column => surrounding.row.map fun row => row.datum column
  | .excluded column => surrounding.excluded.map fun row => row.datum column
  | .now => some surrounding.now

/-- Whether a condition holds.  It does not where one of its terms is missing. -/
def Condition.holds (surrounding : Surrounding) : Condition → Bool
  | .equal first second =>
      match first.datum? surrounding, second.datum? surrounding with
      | some left, some right => left = right
      | _, _ => false
  | .unequal first second =>
      match first.datum? surrounding, second.datum? surrounding with
      | some left, some right => left ≠ right
      | _, _ => false

/-- What a query gives in a column.  It is null where it is missing. -/
def Output.value (surrounding : Surrounding) : Output → Value
  | .datum term => (term.datum? surrounding).elim .null Datum.value
  | .size column => surrounding.row.elim .null fun row => .whole (row.datum column).size

def fulfilling (now : Datum) (parameters : List Datum) (condition : Option Condition)
    (rows : List ProgramRow) : List ProgramRow :=
  rows.filter fun row => condition.all fun condition =>
    condition.holds { now, parameters, row := some row }

/-- What a query gives: the rows that fulfil its condition, in an order that is ascending by
the column it names, and of each row what it asks for. -/
def IsSelection (now : Datum) (parameters : List Datum) (rows : List ProgramRow)
    (outputs : List Output) (condition : Option Condition) (order : Option TableColumn)
    (answers : List (List Value)) : Prop :=
  ∃ chosen : List ProgramRow, chosen.Perm (fulfilling now parameters condition rows) ∧
    (∀ column ∈ order, chosen.Pairwise fun first second =>
      (first.datum column).rank ≤ (second.datum column).rank) ∧
    answers = chosen.map fun row =>
      outputs.map (Output.value { now, parameters, row := some row })

/-- A row with other values in some columns, all taken before the first of them changes. -/
def assigned? (surrounding : Surrounding) :
    ProgramRow → List (TableColumn × Term) → Option ProgramRow
  | row, [] => some row
  | row, (column, term) :: rest =>
      (term.datum? surrounding).bind fun datum => assigned? surrounding (row.set datum column) rest

/-- The rows after a row is put among them, and how many of them have changed. -/
def putRow? (surrounding : Surrounding) (new : ProgramRow)
    (assignments : List (TableColumn × Term)) (condition : Option Condition)
    (rows : List ProgramRow) : Option (List ProgramRow × Nat) :=
  match rows.find? fun row => row.key = new.key with
  | none => some (rows ++ [new], 1)
  | some old =>
      let both := { surrounding with row := some old, excluded := some new }
      if condition.all fun condition => condition.holds both then
        (assigned? both old assignments).map fun changed =>
          (rows.map fun row => if row.key = new.key then changed else row, 1)
      else some (rows, 0)

namespace SimpleCommand

/-- The rows after a command, and how many of them it has changed.  A query changes none, and
has no meaning here. -/
def change? (now : Datum) (parameters : List Datum) :
    SimpleCommand → List ProgramRow → Option (List ProgramRow × Nat)
  | .find _ _ _, _ => none
  | .put columns values assignments condition, rows => do
      let data ← values.mapM (Term.datum? { now, parameters })
      let new ← ProgramRow.ofColumns? now (columns.zip data)
      putRow? { now, parameters } new assignments condition rows
  | .remove condition, rows =>
      let removed := fulfilling now parameters condition rows
      some (rows.filter fun row => row ∉ removed, removed.length)

/-! ### The commands of a store -/

def load : SimpleCommand :=
  .find [.datum (.stored .content), .datum (.stored .digest)]
    (some (.equal (.stored .key) (.parameter 1))) none

def list : SimpleCommand :=
  .find [.datum (.stored .key), .datum (.stored .digest), .size .content] none (some .key)

/-- Puts a text under a key unless its digest is there. -/
def save : SimpleCommand :=
  .put [.key, .content, .digest] [.parameter 1, .parameter 2, .parameter 3]
    [(.content, .excluded .content), (.digest, .excluded .digest), (.moment, .now)]
    (some (.unequal (.stored .digest) (.excluded .digest)))

def delete : SimpleCommand := .remove (some (.equal (.stored .key) (.parameter 1)))

theorem ofText?_loadText : ofText? RowKeeper.loadText = some load := by
  decide +kernel

theorem ofText?_listText : ofText? RowKeeper.listText = some list := by
  decide +kernel

theorem ofText?_saveText : ofText? RowKeeper.saveText = some save := by
  decide +kernel

theorem ofText?_deleteText : ofText? RowKeeper.deleteText = some delete := by
  decide +kernel

end SimpleCommand

end BlockStage

import BlockStage.Query.Binding
import BlockStage.Query.CommandGrammar

/-!
# Reading definitions

The catalogue of a file has the text of the command by which each thing was made.
The texts are read again in their order, and each has to make what the catalogue says
it does.  A file in which one of them does not is unusable as a whole, so everything
is checked here that does not depend on rows: names, types, rules that exclude each
other, and the expressions of rules and indexes.
-/

namespace BlockStage

namespace Query

open Pages (Value)

/-- An entry of the catalogue.  All its texts are as the file has them, byte by
byte. -/
structure Entry where
  kind : Option String
  name : Option String
  table : Option String
  root : Option String
  definition : Option String

/-! ### Columns -/

namespace Column

/-- The types that need no interpretation, with the affinities they give. -/
def plainTypes : List (String × Affinity) :=
  [("any", .numeric), ("blob", .blob), ("int", .integer), ("integer", .integer), ("real", .real),
    ("text", .text)]

def firstNumber (text : List Char) : Nat :=
  Grammar.digitsValue 10 ((text.dropWhile fun character => !character.isDigit).takeWhile
    Char.isDigit)

/-- What stands behind the last occurrence of a part in a text. -/
def behindPart (part : List Char) : List Char → Option (List Char)
  | [] => none
  | character :: rest =>
      match behindPart part rest with
      | some found => some found
      | none =>
          if part.isPrefixOf (character :: rest) then some ((character :: rest).drop part.length)
          else none

/-- How wide the values of a type are taken to be, in units of four bytes. -/
def widthOf (type : String) (affinity : Affinity) : Nat :=
  let text := type.toLower.toList
  let size :=
    if text.isEmpty ∨ !(affinity = .text ∨ affinity = .blob) then 0
    else
      match behindPart "char".toList text with
      | some behind => firstNumber behind
      | none =>
          match behindPart "blob".toList text with
          | some ('(' :: behind) => if affinity = .blob then firstNumber behind else 16
          | _ => 16
  min 255 (size / 4 + 1)

def ofType (name type : String) : Column :=
  let affinity := (plainTypes.lookup type.toLower).getD (Grammar.affinityOf type)
  { name, type, affinity, width := widthOf type affinity }

end Column

/-! ### Expressions in definitions -/

namespace Table

def scope (table : Table) (rules : Rules) : Scope :=
  { schema := {}, frames := [{ sources := [table.shape table.name] }], rules }

def checkRules : Rules :=
  { allowsQueries := false, allowsParameters := false, allowsRaise := true, isLenient := true
    isTimeless := true }

/-- What may stand in an expression whose values are kept in an index or in a row. -/
def steadyRules : Rules :=
  { checkRules with needsSteady := true, allowsNumber := false, allowsQualified := false }

def partialRules : Rules := { checkRules with needsSteady := true }

end Table

/-- Whether a value given by default depends on nothing, with fuel for the depth. -/
def isConstant : Nat → Expression → Bool
  | 0, _ => false
  | fuel + 1, expression =>
      match expression with
      | .name none name false => name == "true" || name == "false"
      | .name .. => false
      | .column .. => false
      | .memberOf .. => false
      | .exist _ => false
      | .scalar .. => false
      | .call _ _ (.manner _ _ _ _ (some _)) => false
      | expression => expression.parts.all (isConstant fuel)

/-! ### Tables -/

/-- A table in the making. -/
structure Making where
  table : Table
  hasPrimary : Bool := false
  /-- The indexes that the table makes with itself, the newest first, with what is
  done about a second row, if that is told. -/
  own : List (Index × Option Resolution) := []

namespace Making

def ownName (table : String) (number : Nat) : String :=
  "sqlite_autoindex_" ++ table ++ "_" ++ toString number

/-- Whether two parts of indexes are the same but for the order. -/
def isSamePart (first second : Part) : Bool :=
  (match first.spot, second.spot with
    | .column first, .column second => first == second
    | _, _ => false) && first.collation == second.collation

/-- Whether two indexes have the same parts but for the order. -/
def haveSameKeys (first second : Index) : Bool :=
  first.keys.length == second.keys.length &&
    (first.keys.zip second.keys).all fun (first, second) => isSamePart first second

/-- Adds an index that the table makes with itself, unless an equal one is there. -/
def addOwn? (making : Making) (keys : List Part) (resolution : Option Resolution)
    (isPrimary : Bool) : Option Making :=
  let index : Index :=
    { name := ownName making.table.name (making.own.length + 1), keys
      unique := some .abort, isOwn := true, isPrimary }
  match making.own.find? fun entry => haveSameKeys entry.1 index with
  | none => some { making with own := (index, resolution) :: making.own }
  | some (present, earlier) =>
      if earlier.isSome && resolution.isSome && earlier != resolution then none
      else
        let changed : Index × Option Resolution :=
          ({ present with isPrimary := present.isPrimary || isPrimary }, earlier <|> resolution)
        some { making with
          own := making.own.map fun entry =>
            if entry.1.name == present.name then changed else entry }

/-- The column that a part of a rule names, with the collation that it asks for. -/
def partName? : Expression → Option (String × Option String)
  | .name none name _ => some (name.toLower, none)
  | .literal (.text bytes) =>
      some ((String.ofList (bytes.toList.map fun byte => Char.ofNat byte.toNat)).toLower, none)
  | .collate operand collation =>
      match partName? operand with
      | some (name, inner) => some (name, inner.or (some collation))
      | none => none
  | _ => none

def part? (table : Table) : OrderTerm → Option Part
  | .term key descends none => do
      let collation := match key with
        | .collate _ name => some name
        | _ => none
      let (name, _) ← partName? key
      let position ← table.position? name
      let column ← table.columns[position]?
      some { spot := .column position, collation := collation.getD column.collation, descends }
  | _ => none

/-- The parts of an index that the table makes for a column. -/
def columnPart (table : Table) (position : Nat) (descends : Bool) : List Part :=
  (table.columns[position]?.map fun column =>
    { spot := .column position, collation := column.collation, descends }).toList

def modifyColumn (making : Making) (position : Nat) (change : Column → Column) : Making :=
  { making with table := { making.table with
    columns := making.table.columns.modify position change } }

/-- Makes columns tell the rows apart.  A whole number that does so alone is the
number of the row. -/
def addPrimary? (making : Making) (positions : List Nat) (parts : List Part)
    (mayBeNumber isCounted : Bool) (resolution : Option Resolution) : Option Making :=
  if making.hasPrimary then none
  else
    let isComputed := positions.any fun position =>
      (making.table.columns[position]?.bind Column.computed).isSome
    let making := positions.foldl
      (fun making position => making.modifyColumn position fun column =>
        { column with isPrimary := true })
      { making with hasPrimary := true }
    let single := match positions with
      | [position] => making.table.columns[position]?.map fun column => (position, column)
      | _ => none
    if isComputed then none
    else
      match single with
      | some (position, column) =>
          if column.type.toLower == "integer" && mayBeNumber && parts.length == 1 then
            some { making with table := { making.table with
              numberColumn := some position, numberRule := resolution.getD .abort, isCounted } }
          else if isCounted then none
          else making.addOwn? parts resolution true
      | none => if isCounted then none else making.addOwn? parts resolution true

def addLink (making : Making) (columns : List Nat) (reference : Reference) (isDeferred : Bool) :
    Making :=
  let link : Link :=
    { columns, table := reference.table, targets := reference.columns
      onDelete := reference.onDelete, onUpdate := reference.onUpdate, isDeferred }
  { making with table := { making.table with links := link :: making.table.links } }

def deferLink (making : Making) (isDeferred : Bool) : Making :=
  { making with table := { making.table with
    links := match making.table.links with
      | link :: links => { link with isDeferred } :: links
      | [] => [] } }

def columnRule? (making : Making) (position : Nat) : ColumnRule → Option Making
  | .label => some making
  | .nullable => some making
  | .collation _ => some making
  | .fallback value =>
      if (making.table.columns[position]?.bind Column.computed).isSome then none
      else if isConstant lookDepth value then
        some (making.modifyColumn position fun column => { column with fallback := some value })
      else none
  | .notNull resolution =>
      some (making.modifyColumn position fun column =>
        { column with required := some (resolution.getD .abort) })
  | .primary descends resolution isCounted =>
      making.addPrimary? [position] (columnPart making.table position descends) (!descends)
        isCounted resolution
  | .unique resolution =>
      making.addOwn? (columnPart making.table position false) resolution false
  | .check condition =>
      some { making with table := { making.table with
        checks := making.table.checks ++ [condition] } }
  | .reference reference =>
      if reference.columns.length ≤ 1 then some (making.addLink [position] reference false)
      else none
  | .deferral isDeferred => some (making.deferLink isDeferred)
  | .computed value kind =>
      let column := making.table.columns[position]?
      if (column.bind Column.fallback).isSome || (column.map Column.isPrimary).getD false ||
          !(kind.all fun kind => kind == "stored" || kind == "virtual") then none
      else
        some (making.modifyColumn position fun column =>
          { column with computed := some (value, kind == some "stored") })

def collationOf (rules : List ColumnRule) : String :=
  (rules.filterMap fun rule =>
    match rule with
    | .collation name => some name
    | _ => none).getLast?.getD "binary"

def column? (making : Making) (text : ColumnText) : Option Making :=
  if (making.table.position? text.name).isSome then none
  else
    let column := { Column.ofType text.name text.type with collation := collationOf text.rules }
    let position := making.table.columns.length
    let making := { making with
      table := { making.table with columns := making.table.columns ++ [column] } }
    text.rules.foldlM (fun making rule => making.columnRule? position rule) making

def tableRule? (making : Making) : TableRule → Option Making
  | .label => some making
  | .primary terms resolution isCounted => do
      let parts ← terms.mapM (part? making.table)
      making.addPrimary? (Table.positionsOf parts) parts true isCounted resolution
  | .unique terms resolution => do
      let parts ← terms.mapM (part? making.table)
      making.addOwn? parts resolution false
  | .check condition =>
      some { making with table := { making.table with
        checks := making.table.checks ++ [condition] } }
  | .reference columns reference isDeferred => do
      let positions ← columns.mapM making.table.position?
      if reference.columns.isEmpty || reference.columns.length == columns.length then
        some (making.addLink positions reference isDeferred)
      else none

/-! ### Finishing a table -/

def withoutRepeats : List Part → List Part → List Part
  | kept, [] => kept
  | kept, part :: parts =>
      if kept.any (isSamePart part) then withoutRepeats kept parts
      else withoutRepeats (kept ++ [part]) parts

/-- The parts of one list that do not repeat one of another. -/
def added (present parts : List Part) : List Part :=
  parts.filter fun part => !present.any (isSamePart part)

/-- Makes the columns that tell rows without numbers apart required, and their index
the place of the rows. -/
def withoutNumbers? (making : Making) : Option Making :=
  if making.table.isCounted || !making.hasPrimary then none
  else
    let table := making.table
    let making := { making with table := { table with
      columns := table.columns.map fun column =>
        if column.isPrimary then
          { column with required := some (column.required.getD .abort) }
        else column } }
    match table.numberColumn with
    | none => some making
    | some position =>
        let making := { making with table := { making.table with numberColumn := none } }
        making.addOwn? (columnPart making.table position false) (some table.numberRule) true

/-- Puts an index in front of others, but one that replaces rows behind those that do
not. -/
def inOrder (index : Index) (replaces : Index → Bool) (indexes : List Index) : List Index :=
  if replaces index then
    indexes.takeWhile (fun other => !replaces other) ++ index ::
      indexes.dropWhile (fun other => !replaces other)
  else index :: indexes

def replaces (index : Index) : Bool := index.unique == some .replace

def ownIndexes (making : Making) : List Index :=
  let indexes := making.own.reverse.map fun (index, resolution) =>
    { index with unique := some (resolution.getD .abort) }
  let primary := (indexes.find? Index.isPrimary).map Index.keys
  let finished := indexes.map fun index =>
    if making.table.isNumbered then
      { index with rest := [{ spot := .number, collation := "binary" }] }
    else if index.isPrimary then { index with keys := withoutRepeats [] index.keys }
    else { index with rest := added index.keys (withoutRepeats [] (primary.getD [])) }
  finished.foldl (fun indexes index => inOrder index replaces indexes) []

def strict? (table : Table) : Option Table :=
  if !table.isStrict then some table
  else if table.columns.any fun column => (Column.plainTypes.lookup column.type.toLower).isNone then
    none
  else
    some { table with
      columns := table.columns.zipIdx.map fun (column, position) =>
        let required :=
          if column.isPrimary && table.numberColumn != some position then
            some (column.required.getD .abort)
          else column.required
        if column.type.toLower == "any" then { column with affinity := .blob, required }
        else { column with required } }

def bound? (table : Table) : Option Table := do
  let checks ← table.checks.mapM (table.scope Table.checkRules).bind?
  let columns ← table.columns.mapM fun column =>
    match column.computed with
    | none => some column
    | some (value, isStored) => do
        let value ← (table.scope Table.steadyRules).bind? value
        some { column with computed := some (value, isStored) }
  if table.columns.all fun column => column.computed.isSome then none
  else some { table with checks, columns }

/-- The width of the values in a row, by the widths of the columns. -/
def finish? (making : Making) : Option Table := do
  let making ← if making.table.isNumbered then some making else making.withoutNumbers?
  let table ← strict? { making.table with indexes := making.ownIndexes }
  bound? table

end Making

namespace Table

/-- The table that a text defines, if the text is in order. -/
def ofText? (text : TableText) : Option Table := do
  let start : Making :=
    { table :=
        { name := text.name, written := text.written, columns := [], isNumbered := text.isNumbered
          isStrict := text.isStrict } }
  let making ← text.columns.foldlM Making.column? start
  let making ← text.rules.foldlM Making.tableRule? making
  making.finish?

end Table

/-! ### Indexes -/

namespace Index

def part? (table : Table) (honoursOrder : Bool) : OrderTerm → Option Part
  | .term key descends none => do
      let key := match Making.partName? key, key with
        | some (name, _), .literal _ => .name none name false
        | some (name, _), .collate (.literal _) collation => .collate (.name none name false) collation
        | _, key => key
      let collation := match key with
        | .collate _ name => some name
        | _ => none
      let bound ← (table.scope Table.steadyRules).bind? key
      let bare := match bound with
        | .collate operand _ => operand
        | bound => bound
      let descends := descends && honoursOrder
      match bare with
      | .column ⟨_, _, some position⟩ _ _ =>
          let column ← table.columns[position]?
          let spot := if table.numberColumn == some position then .number else .column position
          some { spot, collation := collation.getD column.collation, descends }
      | bare => some { spot := .value bare, collation := collation.getD "binary", descends }
  | _ => none

def ofText? (table : Table) (honoursOrder : Bool) (text : IndexText) : Option Index := do
  let keys ← text.parts.mapM (part? table honoursOrder)
  let condition ← (table.scope Table.partialRules).bindOptional? text.condition
  let rest :=
    if table.isNumbered then [{ spot := .number, collation := "binary" }]
    else Making.added keys ((table.primary?.map Index.keys).getD [])
  some { name := text.name, keys, rest, condition
         unique := if text.isUnique then some .abort else none }

end Index

/-! ### The catalogue -/

/-- What is known of a file when its definitions are read. -/
structure Setting where
  pageCount : Nat
  /-- Whether the file knows of indexes in descending order. -/
  honoursOrder : Bool

namespace Schema

def rootOf? (root : Option String) : Option Nat :=
  match root with
  | none => none
  | some text =>
      if text.isEmpty || !text.toList.all Char.isDigit then none
      else some (Grammar.digitsValue 10 text.toList)

/-- Whether an entry has a kind, a name and the name of a table. -/
def fits (entry : Entry) (kind name table : String) : Bool :=
  let isSame := fun (given : Option String) (wanted : String) =>
    given.any fun given => given.toLower == wanted
  isSame entry.kind kind && isSame entry.name name && isSame entry.table table

def isCatalogue (name : String) : Bool := name == "sqlite_master" || name == "sqlite_schema"

def addTable? (schema : Schema) (entry : Entry) (root : Nat) (text : TableText) :
    Option Schema := do
  if !fits entry "table" text.name text.name || schema.hasRelation text.name ||
      schema.hasIndex text.name || root = 1 then none
  else
    let table ← Table.ofText? text
    let indexes := table.indexes.map fun index =>
      if !table.isNumbered && index.isPrimary then { index with root } else index
    some { schema with tables := schema.tables ++ [{ table with root, indexes }] }

def addIndex? (schema : Schema) (setting : Setting) (entry : Entry) (root : Nat)
    (text : IndexText) : Option Schema := do
  let table ← schema.table? text.table
  let index ← Index.ofText? table setting.honoursOrder text
  if !fits entry "index" text.name table.name || schema.hasIndex text.name ||
      table.indexes.any fun other => other.root == root then none
  else
    some (schema.withTable { table with
      indexes := Making.inOrder { index with root } Making.replaces table.indexes })

def placeIndex? (schema : Schema) (setting : Setting) (name : String) (root : Nat) :
    Option Schema := do
  let table ← schema.tables.find? fun table => table.indexes.any fun index => index.name == name
  if root < 2 || setting.pageCount < root ||
      table.indexes.any (fun index => index.name != name && index.root == root) then none
  else
    some (schema.withTable { table with
      indexes := table.indexes.map fun index =>
        if index.name == name then { index with root } else index })

def addView? (schema : Schema) (entry : Entry) (root : Nat) (text : ViewText) : Option Schema :=
  if !fits entry "view" text.name text.name || schema.hasRelation text.name ||
      schema.hasIndex text.name || root != 0 then none
  else some { schema with views := schema.views ++ [⟨text.name, text.columns, text.query⟩] }

/-- Adds a trigger.  One that acts in place of a change belongs to a view, and any
other to a table. -/
def addTrigger? (schema : Schema) (entry : Entry) (text : TriggerText) : Option Schema :=
  let isView := (schema.view? text.table).isSome
  let isTable := (schema.table? text.table).isSome
  if !fits entry "trigger" text.name text.table || !(isView || isTable) ||
      isView != (text.time == .instead) || "sqlite_".toList.isPrefixOf text.table.toList ||
      schema.triggers.any fun other => other.name == text.name then none
  else
    let trigger : Trigger :=
      ⟨text.name, text.table, text.time, text.event, text.condition, text.steps⟩
    some { schema with triggers := trigger :: schema.triggers }

def make? (schema : Schema) (setting : Setting) (entry : Entry) (text : String) : Option Schema := do
  let root ← rootOf? entry.root
  if root > setting.pageCount then none
  else
    match ← Definition.ofText? text with
    | .table text => schema.addTable? entry root text
    | .index text => schema.addIndex? setting entry root text
    | .view text => schema.addView? entry root text
    | .trigger text => schema.addTrigger? entry text
    | .foreign name _ =>
        if !fits entry "table" name name || schema.hasRelation name || root != 0 then none
        else some { schema with foreigns := name :: schema.foreigns }

/-- Takes an entry of the catalogue into account.  One without a text is an index
that a table made with itself. -/
def add? (setting : Setting) (schema : Schema) (entry : Entry) : Option Schema :=
  let text := entry.definition.getD ""
  if entry.root.isNone then none
  else if "cr".toList.isPrefixOf (text.toLower.toList) then schema.make? setting entry text
  else if !text.isEmpty then none
  else
    match entry.name, rootOf? entry.root with
    | some name, some root => schema.placeIndex? setting name.toLower root
    | _, _ => none

def catalogueTable (name : String) : Table :=
  { name, root := 1
    columns := [.ofType "type" "TEXT", .ofType "name" "TEXT", .ofType "tbl_name" "TEXT",
      .ofType "rootpage" "INT", .ofType "sql" "TEXT"] }

/-- What the entries of a catalogue define, if all of them are in order. -/
def ofEntries? (setting : Setting) (entries : List Entry) : Option Schema :=
  entries.foldlM (add? setting)
    { tables := [catalogueTable "sqlite_master", catalogueTable "sqlite_schema"] }

end Schema

end Query

end BlockStage

import BlockStage.Query.Affinity
import BlockStage.Query.Comparison
import BlockStage.Query.Function
import BlockStage.Query.Table
import BlockStage.Query.Window

/-!
# Binding names

Before an expression is computed, the names in it are bound to columns.  A name is
looked for among the sources of the query it stands in, then among those of the
query around that, and so on.  What is not found may still be a text that was written
in the quotes of a name.  Binding also replaces views by their queries and stars by
columns, and it refuses functions that do not exist.
-/

namespace BlockStage

namespace Query

open Pages (Value)

/-- What is known of a column before there are rows. -/
structure ColumnShape where
  name : String
  affinity : Option Affinity := none
  collation : Option String := none
  /-- The kinds of values that the last query may bring into the column. -/
  kinds : Kinds := {}
  /-- The kinds of values that other queries bring into the column. -/
  otherKinds : Kinds := {}
  /-- Whether the column is a cast. -/
  isCast : Bool := false
  /-- Whether an earlier source has the column as well, so that it is left out. -/
  isShared : Bool := false

/-- What is known of a source before there are rows. -/
structure SourceShape where
  label : String
  columns : List ColumnShape
  /-- Whether its rows have numbers. -/
  hasNumber : Bool := false
  /-- Whether its columns have to be named together with it. -/
  isNamedOnly : Bool := false

/-- The sources of one query, and the names of expressions that it computes. -/
structure Frame where
  sources : List SourceShape := []
  aliases : List (String × Expression) := []

/-- What may stand in an expression. -/
structure Rules where
  allowsQueries : Bool := true
  allowsParameters : Bool := true
  /-- Whether functions may gather values of several rows. -/
  allowsGathering : Bool := false
  /-- Whether functions may look at the rows around one. -/
  allowsWindows : Bool := false
  allowsRaise : Bool := false
  /-- Whether the number of a row may be named. -/
  allowsNumber : Bool := true
  /-- Whether a column may be named together with its table. -/
  allowsQualified : Bool := true
  /-- Whether functions that do not exist are only noticed when they are used. -/
  isLenient : Bool := false
  /-- Whether the value may depend on nothing but the row. -/
  needsSteady : Bool := false
  /-- Whether functions of time must not ask for the present. -/
  isTimeless : Bool := false

/-- What names can refer to. -/
structure Scope where
  schema : Schema
  /-- The sources in sight, the nearest first. -/
  frames : List Frame := []
  rules : Rules := {}
  /-- Queries under names, layer by layer, the nearest first. -/
  commons : List (List CommonTable) := []
  /-- The queries under names that are being bound, with the numbers of their layers. -/
  pending : List (String × Nat) := []
  /-- The query that is continued from its own rows, with its columns. -/
  recent : Option (String × List ColumnShape) := none
  /-- The windows with names. -/
  windows : List (String × Window) := []

/-- How a binder goes about parts of what it binds. -/
structure Binder where
  expression : Scope → Expression → Option Expression
  query : Scope → Request → Option (Request × List ColumnShape)

/-! ### Shapes -/

namespace Table

def shape (table : Table) (label : String) : SourceShape :=
  { label
    columns := table.columns.map fun column =>
      { name := column.name, affinity := some column.affinity
        collation := some column.collation }
    hasNumber := table.isNumbered }

end Table

namespace ColumnShape

/-- The shape of a column of two queries that are put together. -/
def combined (first second : ColumnShape) : ColumnShape :=
  let collation := first.collation <|> second.collation
  match first.affinity with
  | some _ =>
      { first with
        collation, kinds := second.kinds, otherKinds := first.otherKinds.union second.kinds }
  | none =>
      { first with
        collation, affinity := second.affinity, kinds := second.kinds
        otherKinds := first.otherKinds.union first.kinds }

/-- The shape of a column of a query as others see it.  A column has no affinity that
does not suit all its values. -/
def settled (column : ColumnShape) : ColumnShape :=
  let affinity := column.affinity.map fun affinity =>
    if affinity = .text then if column.otherKinds.hasNumbers then .blob else affinity
    else if Pages.Value.prefersNumbers affinity then
      if column.otherKinds.hasTexts then .blob
      else if column.isCast then .numeric
      else affinity
    else affinity
  { column with affinity, kinds := {}, otherKinds := {}, isCast := false }

end ColumnShape

namespace SourceShape

def renamed (columns : List ColumnShape) (names : List String) : Option (List ColumnShape) :=
  let columns := columns.map ColumnShape.settled
  if names.isEmpty then some columns
  else if names.length = columns.length then
    some ((columns.zip names).map fun (column, name) => { column with name })
  else none

end SourceShape

/-! ### Names -/

namespace Frame

def numberNames : List String := ["rowid", "oid", "_rowid_"]

/-- The columns of the sources that a name may mean, with their positions. -/
def matching (frame : Frame) (table : Option String) (name : String) :
    List (Nat × Nat × ColumnShape) :=
  frame.sources.zipIdx.flatMap fun (source, position) =>
    if table.all (· == source.label) && (table.isSome || !source.isNamedOnly) then
      (source.columns.zipIdx.filter fun (column, _) =>
        column.name == name && (table.isSome || !column.isShared)).map
        fun (column, index) => (position, index, column)
    else []

/-- The source whose number a name may mean, if there is only one. -/
def numbered? (frame : Frame) (table : Option String) : Option Nat :=
  let named := frame.sources.zipIdx.filter fun (source, _) =>
    table.all (· == source.label) && (table.isSome || !source.isNamedOnly)
  match named with
  | [(source, position)] => if source.hasNumber then some position else none
  | _ => none

/-- What a name means in a frame so far out: nothing, one column, or too many. -/
def resolve (frame : Frame) (allowsNumber : Bool) (depth : Nat) (table : Option String)
    (name : String) : Option (Option Expression) :=
  match frame.matching table name with
  | [(source, index, column)] =>
      some (some (.column ⟨depth, source, some index⟩ column.affinity column.collation))
  | _ :: _ => none
  | [] =>
      let numbered :=
        if allowsNumber && numberNames.contains name then frame.numbered? table else none
      match numbered with
      | some source => some (some (.column ⟨depth, source, none⟩ (some .integer) none))
      | none => some (if table.isNone then frame.aliases.lookup name else none)

end Frame

namespace Scope

def resolveFrom (rules : Rules) (table : Option String) (name : String) :
    Nat → List Frame → Option (Option Expression)
  | _, [] => some none
  | depth, frame :: frames =>
      match frame.resolve rules.allowsNumber depth table name with
      | some none => resolveFrom rules table name (depth + 1) frames
      | found => found

/-- What a name means.  One that is found nowhere may be a truth or a text. -/
def resolve (scope : Scope) (table : Option String) (name : String) (isLoose : Bool) :
    Option Expression :=
  let sought := if isLoose then name.toLower else name
  if table.isSome && !scope.rules.allowsQualified then none
  else
    match resolveFrom scope.rules table sought 0 scope.frames with
    | none => none
    | some (some found) => some found
    | some none =>
        if table.isSome then none
        else if isLoose then some (.literal (.text (Grammar.bytesOfText name)))
        else if name = "true" then some (.whole 1)
        else if name = "false" then some (.whole 0)
        else none

def within (scope : Scope) (frame : Frame) : Scope :=
  { scope with frames := frame :: scope.frames }

def inside (scope : Scope) : Scope :=
  { scope with
    rules := { scope.rules with allowsGathering := false, allowsWindows := false }
    recent := none, windows := [] }

/-- The query with a name, and the layers of queries that it can use. -/
def common? (name : String) : List (List CommonTable) →
    Option (CommonTable × List (List CommonTable))
  | [] => none
  | layer :: layers =>
      match layer.find? fun | .table known _ _ => known == name with
      | some table => some (table, layer :: layers)
      | none => common? name layers

def ruled (scope : Scope) (change : Rules → Rules) : Scope :=
  { scope with rules := change scope.rules }

end Scope

/-! ### Expressions -/

namespace Binder

/-- Whether the collation by which two operands are compared is known. -/
def isComparable (first second : Expression) : Bool :=
  (first.sharedCollation? second).all fun name => (Collation.ofName? name).isSome

def isComparison : Binary → Bool
  | .equal => true
  | .unequal => true
  | .is => true
  | .isNot => true
  | .less => true
  | .atMost => true
  | .greater => true
  | .atLeast => true
  | _ => false

def mayCall (rules : Rules) (function : String) (arguments : List Expression) : Manner → Bool
  | .manner isDistinct _ order condition window =>
      match Function.find? function arguments.length with
      | none => rules.isLenient && !Function.isKnown function
      | some signature =>
          let isFit := if window.isSome then
              rules.allowsWindows && !isDistinct && order.isEmpty &&
                (signature.gathers || (signature.looksAround && condition.isNone))
            else
              !signature.looksAround &&
                if signature.gathers then
                  rules.allowsGathering && (!isDistinct || arguments.length == 1)
                else condition.isNone && order.isEmpty
          isFit && (signature.isSteady || !rules.needsSteady)

variable (inner : Binder)

def all (scope : Scope) (expressions : List Expression) : Option (List Expression) :=
  expressions.mapM (inner.expression scope)

def optional (scope : Scope) : Option Expression → Option (Option Expression)
  | none => some none
  | some expression => (inner.expression scope expression).map some

def orderTerm (scope : Scope) : OrderTerm → Option OrderTerm
  | .term key descends nullsLast => do
      let key ← inner.expression scope key
      if (key.collation?).all fun name => (Collation.ofName? name).isSome then
        some (.term key descends nullsLast)
      else none

def inside (scope : Scope) (query : Request) : Option (Request × List ColumnShape) :=
  if scope.rules.allowsQueries then inner.query scope.inside query else none

def edge (scope : Scope) : Edge → Option Edge
  | .before distance => (inner.expression scope distance).map .before
  | .after distance => (inner.expression scope distance).map .after
  | edge => some edge

def reach (scope : Scope) : Option Reach → Option (Option Reach)
  | none => some none
  | some (.reach measure start finish exclusion) => do
      let start ← inner.edge scope start
      let finish ← inner.edge scope finish
      some (some (.reach measure start finish exclusion))

def window (scope : Scope) : Option Window → Option (Option Window)
  | none => some none
  | some asked => do
      let (partition, order, reach) ←
        Window.resolve? scope.windows (scope.windows.length + 2) asked
      if !Window.isSound order reach then none
      else
        let partition ← partition.mapM (inner.expression scope)
        let order ← order.mapM (inner.orderTerm scope)
        let reach ← inner.reach scope reach
        some (some (.window none partition order reach))

def call (scope : Scope) (function : String) (arguments : List Expression) (manner : Manner) :
    Option Expression :=
  match manner with
  | .manner isDistinct isStar order condition window => do
      if !mayCall scope.rules function arguments manner then none
      else
        let gathers := window.isNone &&
          (Function.find? function arguments.length).any Signature.gathers
        let within := scope.ruled fun rules => { rules with
          allowsGathering := rules.allowsGathering && !gathers
          allowsWindows := rules.allowsWindows && !gathers && window.isNone }
        let arguments ← inner.all within arguments
        let order ← order.mapM (inner.orderTerm within)
        let condition ← inner.optional within condition
        let window ← inner.window within window
        let function := if scope.rules.isTimeless && (Moment.functions.lookup function).isSome then
            Moment.steadyName function
          else function
        some (.call function arguments (.manner isDistinct isStar order condition window))

def binary (scope : Scope) (operator : Binary) (first second : Expression) :
    Option Expression := do
  let first ← inner.expression scope first
  let truth : Option Bool := match second with
    | .name none name false => if name = "true" then some true
        else if name = "false" then some false else none
    | _ => none
  match operator, truth with
  | .is, some true => some (.isTrue first)
  | .isNot, some true => some (.unary .not (.isTrue first))
  | .is, some false =>
      some (.binary .and (.unary .not (.isTrue first)) (.unary .not (.isNull first)))
  | .isNot, some false =>
      some (.binary .or (.isTrue first) (.isNull first))
  | _, _ =>
      let second ← inner.expression scope second
      if isComparison operator && !scope.rules.isLenient && !isComparable first second then none
      else some (.binary operator first second)

/-- Binds the values that an expression stands for when it is compared: those of a row,
those of the columns of a query, or just one. -/
def together (scope : Scope) : Expression → Option (List Expression)
  | .row items => inner.all scope items
  | .scalar query _ => do
      let (query, shape) ← inner.inside scope query
      some ((List.range shape.length).map fun position => .scalar query position)
  | expression => (inner.expression scope expression).map fun bound => [bound]

def compareAll (operator : Binary) : List (Expression × Expression) → Option Expression
  | [] => none
  | [(first, second)] => some (.binary operator first second)
  | (first, second) :: pairs => do
      let rest ← compareAll operator pairs
      let strict : Binary := match operator with
        | .atMost => .less
        | .atLeast => .greater
        | operator => operator
      match operator with
      | .equal => some (.binary .and (.binary .equal first second) rest)
      | .is => some (.binary .and (.binary .is first second) rest)
      | .unequal => some (.binary .or (.binary .unequal first second) rest)
      | .isNot => some (.binary .or (.binary .isNot first second) rest)
      | _ =>
          some (.binary .or (.binary strict first second)
            (.binary .and (.binary .equal first second) rest))

def isTruth : Expression → Bool
  | .name none name false => name == "true" || name == "false"
  | _ => false

def mayBeMany : Expression → Bool
  | .row _ => true
  | .scalar .. => true
  | _ => false

def rowComparison (scope : Scope) (operator : Binary) (first second : Expression) :
    Option Expression := do
  let firsts ← inner.together scope first
  let seconds ← inner.together scope second
  let pairs := firsts.zip seconds
  if firsts.length ≠ seconds.length ||
      !(scope.rules.isLenient || pairs.all fun (first, second) => isComparable first second) then
    none
  else compareAll operator pairs

/-- Binds an expression, whose parts are bound by an inner binder. -/
def expressionWith (scope : Scope) : Expression → Option Expression
  | .literal value => some (.literal value)
  | .moment kind => if scope.rules.needsSteady then none else some (.moment kind)
  | .parameter number => if scope.rules.allowsParameters then some (.parameter number) else none
  | .name table column isLoose => scope.resolve table column isLoose
  | .column place affinity collation => some (.column place affinity collation)
  | .unary operator operand => (inner.expression scope operand).map (.unary operator ·)
  | .binary operator first second =>
      if isComparison operator && (mayBeMany first || mayBeMany second) && !isTruth second then
        inner.rowComparison scope operator first second
      else inner.binary scope operator first second
  | .isNull operand => (inner.expression scope operand).map .isNull
  | .isTrue operand => (inner.expression scope operand).map .isTrue
  | .collate operand collation =>
      if (Collation.ofName? collation).isSome || scope.rules.isLenient then
        (inner.expression scope operand).map (.collate · collation)
      else none
  | .cast operand affinity => (inner.expression scope operand).map (.cast · affinity)
  | .call function arguments manner => inner.call scope function arguments manner
  | .member operand items => do
      let operand ← inner.expression scope operand
      let items ← inner.all scope items
      if scope.rules.isLenient || isComparable operand .null then some (.member operand items)
      else none
  | .memberOf operand query => do
      let operands ← inner.together scope operand
      let (query, shape) ← inner.inside scope query
      match operands with
      | [operand] => if shape.length = 1 then some (.memberOf operand query) else none
      | operands =>
          if shape.length = operands.length then some (.memberOf (.row operands) query) else none
  | .exist query => do
      let (query, _) ← inner.inside scope query
      some (.exist query)
  | .scalar query position => do
      let (query, shape) ← inner.inside scope query
      if shape.length = 1 then some (.scalar query position) else none
  | .choice base branches otherwise => do
      let base ← inner.optional scope base
      let branches ← branches.mapM fun (condition, value) => do
        let condition ← inner.expression scope condition
        let value ← inner.expression scope value
        some (condition, value)
      let otherwise ← inner.optional scope otherwise
      some (.choice base branches otherwise)
  | .row _ => none
  | .raise resolution => if scope.rules.allowsRaise then some (.raise resolution) else none

/-! ### Sources -/

def shapeOf (expression : Expression) (name : String) : ColumnShape :=
  { name, affinity := expression.affinity?, collation := expression.collation?
    kinds := expression.kinds
    isCast := match expression with
      | .cast .. => true
      | _ => false }

/-- The shape of a column of several queries that are put together. -/
def joinShapes : List ColumnShape → ColumnShape
  | [] => { name := "" }
  | first :: rest => rest.foldl ColumnShape.combined first

def view (scope : Scope) (view : View) : Option (Request × List ColumnShape) := do
  let (query, columns) ← inner.query { schema := scope.schema } view.query
  let columns ← SourceShape.renamed columns view.columns
  some (query, columns)

def relation (scope : Scope) (name label : String) : Option (Origin × SourceShape) :=
  match scope.schema.table? name with
  | some table => some (.table none name, table.shape label)
  | none =>
      match scope.schema.view? name with
      | none => none
      | some found => do
          let (query, columns) ← inner.view scope found
          some (.query query, { label, columns })

/-- The sources one behind the other, without groups, with fuel for their depth. -/
def flat : Nat → List Source → List Source
  | 0, sources => sources
  | fuel + 1, sources =>
      sources.flatMap fun source =>
        match source with
        | .source (.group nested) none _ none [] => flat fuel nested
        | source => [source]

def mentions (name : String) : Request → Nat
  | .select _ _ sources _ _ _ _ =>
      ((flat lookDepth sources).filter fun
        | .source (.table none known) _ _ _ _ => known == name
        | _ => false).length
  | _ => 0

/-- Splits the queries that continue one with a name off from its first ones. -/
def splitSteps (name : String) (combination : Combination) : Request → Request × List Request
  | .compound found first second =>
      if found = combination && mentions name second != 0 then
        let (start, steps) := splitSteps name combination first
        (start, steps ++ [second])
      else (.compound found first second, [])
  | query => (query, [])

/-- The first queries under a name, those that continue them, and whether repeated rows
are kept. -/
def continued (name : String) : Request → Request × List Request × Bool
  | .compound .unionAll first second =>
      let (start, steps) := splitSteps name .unionAll (.compound .unionAll first second)
      (start, steps, true)
  | .compound .union first second =>
      let (start, steps) := splitSteps name .union (.compound .union first second)
      (start, steps, false)
  | query => (query, [], true)

/-- The columns that a source shares with earlier ones by its join. -/
def sharedNames (earlier : List SourceShape) (shape : SourceShape) (join : Join)
    (shared : List String) : List String :=
  if join.isNatural then
    (shape.columns.map ColumnShape.name).filter fun name =>
      earlier.any fun source => source.columns.any fun column => column.name == name
  else shared

/-- The condition under which rows agree in a column that sources share. -/
def agreement (earlier : List SourceShape) (shape : SourceShape) (name : String) :
    Option Expression := do
  let frame : Frame := { sources := earlier }
  let (source, index, column) ← (frame.matching none name).head?
  let own ← shape.columns.findIdx? fun column => column.name == name
  let ownShape ← shape.columns[own]?
  some (.binary .equal (.column ⟨0, source, some index⟩ column.affinity column.collation)
    (.column ⟨0, earlier.length, some own⟩ ownShape.affinity ownShape.collation))

/-- The columns of rows that are no selection, as sources of their order. -/
def resultColumns (columns : List ColumnShape) : List (Expression × ColumnShape) :=
  columns.zipIdx.map fun (column, index) =>
    (.column ⟨0, 0, some index⟩ column.affinity column.collation, column)

/-- An expression by which rows are grouped or ordered, which may be the position of
a column. -/
def orPosition (columns : List (Expression × ColumnShape)) (otherwise : Option Expression) :
    Expression → Option Expression
  | .literal (.whole position) =>
      if 1 ≤ position then (columns[position.toNat - 1]?).map Prod.fst else none
  | _ => otherwise

/-- Binds a term by which the rows of a query are ordered: the position or the name
of one of its columns, or an expression over its sources. -/
def orderOf (columns : List (Expression × ColumnShape)) (otherwise : Expression → Option Expression) :
    OrderTerm → Option OrderTerm
  | .term key descends nullsLast => do
      let (bare, collation) := match key with
        | .collate operand name => (operand, some name)
        | key => (key, none)
      let named := match bare with
        | .name none name _ =>
            (columns.find? fun (_, shape) => shape.name == name.toLower).map Prod.fst
        | _ => none
      let bound ← match named with
        | some expression => some expression
        | none => orPosition columns (otherwise bare) bare
      let bound := match collation with
        | some name => .collate bound name
        | none => bound
      if (bound.collation?).all fun name => (Collation.ofName? name).isSome then
        some (.term bound descends nullsLast)
      else none

/-- Binds a query under a name, which may be continued from its own rows. -/
def common (scope : Scope) : CommonTable → Option (Request × List ColumnShape)
  | .table name names query => do
      let (body, order, limit, offset) := match query with
        | .ordered body order limit offset => (body, order, limit, offset)
        | body => (body, [], none, none)
      match continued name body with
      | (_, [], _) =>
          let (bound, columns) ← inner.query scope query
          let columns ← SourceShape.renamed columns names
          some (bound, columns)
      | (start, steps, keepsRepeats) =>
          if steps.any fun step => mentions name step != 1 then none
          else
            let (start, columns) ← inner.query scope start
            let columns ← SourceShape.renamed columns names
            let steps ← steps.mapM fun step => do
              let (step, others) ← inner.query { scope with recent := some (name, columns) } step
              if others.length = columns.length then some step else none
            let bare : Scope := { scope with frames := [] }
            let limit ← inner.optional bare limit
            let offset ← inner.optional bare offset
            let order ← order.mapM (orderOf (resultColumns columns) fun _ => none)
            some (.recursive keepsRepeats start steps order limit offset, columns)

def origin (scope : Scope) (label : Option String) : Origin → Option (Origin × SourceShape)
  | .table (some _) name => inner.relation scope name (label.getD name)
  | .table none name =>
      let label := label.getD name
      match scope.recent with
      | some (recent, columns) =>
          if recent = name then some (.recent, { label, columns })
          else named name label
      | none => named name label
  | .query query => do
      let (query, columns) ← inner.query scope.inside query
      some (.query query, { label := label.getD "", columns := columns.map ColumnShape.settled })
  | .recent => none
  | .call .. => none
  | .group .. => none
where
  /-- Binds what a name stands for. -/
  named (name label : String) : Option (Origin × SourceShape) :=
    match Scope.common? name scope.commons with
    | none => inner.relation scope name label
    | some (table, layers) => do
        let mark := (name, layers.length)
        if scope.pending.contains mark then none
        else
          let within := { scope.inside with commons := layers, pending := mark :: scope.pending }
          let (query, columns) ← inner.common within table
          some (.query query, { label, columns })

/-- Binds sources, given the shapes of the earlier ones.  Conditions of joins are
left as they are, and shared columns become conditions. -/
def sourcesFrom (scope : Scope) :
    List Source → List SourceShape → Option (List (Source × Option Expression) × List SourceShape)
  | [], shapes => some ([], shapes)
  | .source origin label join condition shared :: sources, shapes => do
      let (origin, shape) ← inner.origin scope label origin
      let names := sharedNames shapes shape join shared
      let agreements ← names.mapM (agreement shapes shape)
      let shape := { shape with
        columns := shape.columns.map fun column =>
          if names.contains column.name then { column with isShared := true } else column }
      let bound : Source := .source origin label { join with isNatural := false } none []
      let (rest, shapes) ← sourcesFrom scope sources (shapes ++ [shape])
      some ((bound, (Expression.all (agreements ++ condition.toList))) :: rest, shapes)

/-! ### Queries -/

def starColumns (position : Nat) (shape : SourceShape) (isQualified : Bool) :
    List (Expression × ColumnShape) :=
  (shape.columns.zipIdx.filter fun (column, _) => isQualified || !column.isShared).map
    fun (column, index) =>
      (.column ⟨0, position, some index⟩ column.affinity column.collation,
        { column with isShared := false })

def resultColumn (scope : Scope) (shapes : List SourceShape) :
    ResultColumn → Option (List (Expression × ColumnShape))
  | .value expression label => do
      let bound ← inner.expression scope expression
      let name := label.getD (match expression with
        | .name _ column _ => column.toLower
        | _ => "")
      some [(bound, shapeOf bound name)]
  | .all none =>
      if shapes.isEmpty then none
      else
        some (shapes.zipIdx.flatMap fun (shape, position) => starColumns position shape false)
  | .all (some label) =>
      let named := shapes.zipIdx.filter fun (shape, _) => shape.label == label
      if named.isEmpty then none
      else some (named.flatMap fun (shape, position) => starColumns position shape true)

/-- Binds a selection.  Gives also the scope of its rows and its columns. -/
def selection (scope : Scope) (isDistinct : Bool) (columns : List ResultColumn)
    (sources : List Source) (condition : Option Expression) (groups : List Expression)
    (having : Option Expression) (windows : List (String × Window)) :
    Option (Request × Scope × List (Expression × ColumnShape)) := do
  let (sources, shapes) ← inner.sourcesFrom scope (flat lookDepth sources) []
  let plain := { scope with windows }.within { sources := shapes }
  let gathering := plain.ruled fun rules =>
    { rules with allowsGathering := true, allowsWindows := true }
  let parts ← columns.mapM (inner.resultColumn gathering shapes)
  let columns := parts.flatten
  let aliases := columns.map fun (expression, shape) => (shape.name, expression)
  let frame : Frame := { sources := shapes, aliases }
  let plain := ({ scope with windows }.within frame).ruled fun rules =>
    { rules with allowsGathering := false, allowsWindows := false }
  let gathering := plain.ruled fun rules => { rules with allowsGathering := true }
  let condition ← inner.optional plain condition
  let groups ← groups.mapM fun group =>
    orPosition columns (inner.expression plain group) group
  let having ← inner.optional gathering having
  let sources ← sources.mapM fun (source, condition) => do
    let condition ← inner.optional plain condition
    match source with
    | .source origin label join _ _ => some (Source.source origin label join condition [])
  let bound : Request := .select isDistinct
    (columns.map fun (expression, shape) => .value expression (some shape.name)) sources condition
    groups having []
  some (bound, gathering.ruled fun rules => { rules with allowsWindows := true }, columns)

/-- Binds a query, whose parts are bound by an inner binder. -/
def queryWith (scope : Scope) : Request → Option (Request × List ColumnShape)
  | .select isDistinct columns sources condition groups having windows => do
      let (bound, _, columns) ←
        inner.selection scope isDistinct columns sources condition groups having windows
      some (bound, columns.map Prod.snd)
  | .values rows => do
      let plain := scope.within {}
      let bound ← rows.mapM (inner.all plain)
      let width := (bound.head?.map List.length).getD 0
      if bound.all fun row => row.length == width then
        some (.values bound,
          (List.range width).map fun index =>
            (bound.map fun row => shapeOf (row.getD index .null) ("column" ++ toString (index + 1)))
              |> joinShapes)
      else none
  | .compound combination first second => do
      let (first, columns) ← inner.query scope first
      let (second, others) ← inner.query scope second
      if columns.length = others.length then
        some (.compound combination first second,
          (columns.zip others).map fun (column, other) => column.combined other)
      else none
  | .ordered query order limit offset => do
      let bare : Scope := { scope with frames := [] }
      let limit ← inner.optional bare limit
      let offset ← inner.optional bare offset
      match query with
      | .select isDistinct columns sources condition groups having windows =>
          let (bound, within, columns) ←
            inner.selection scope isDistinct columns sources condition groups having windows
          let order ← order.mapM (orderOf columns (inner.expression within))
          some (.ordered bound order limit offset, columns.map Prod.snd)
      | query =>
          let (bound, columns) ← inner.query scope query
          let order ← order.mapM (orderOf (resultColumns columns) fun _ => none)
          some (.ordered bound order limit offset, columns)
  | .withTables tables query =>
      let names := tables.map fun | .table name _ _ => name
      if names.eraseDups.length = names.length then
        inner.query { scope with commons := tables :: scope.commons } query
      else none
  | .recursive .. => none

def ofDepth : Nat → Binder
  | 0 => { expression := fun _ _ => none, query := fun _ _ => none }
  | depth + 1 =>
      let inner := ofDepth depth
      { expression := inner.expressionWith, query := inner.queryWith }

def depth : Nat := 1000

def standard : Binder := ofDepth depth

end Binder

namespace Scope

def bind? (scope : Scope) (expression : Expression) : Option Expression :=
  Binder.standard.expression scope expression

def bindOptional? (scope : Scope) (expression : Option Expression) :
    Option (Option Expression) :=
  Binder.standard.optional scope expression

def bindQuery? (scope : Scope) (query : Request) : Option (Request × List ColumnShape) :=
  Binder.standard.query scope query

end Scope

end Query

end BlockStage

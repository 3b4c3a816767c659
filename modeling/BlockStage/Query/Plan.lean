import BlockStage.Query.Binding

/-!
# Ways to the rows of a table

The rows of a table can be visited in the order of their numbers, or in the order of
an index, and either from the front or from the back; a condition can single out one
number, or the entries of an index that start with some values.  The way matters for
the order in which rows come, and for the parts of a file that are looked at.  It is
chosen by estimates on a logarithmic scale, on which ten stands for a factor of two.
-/

namespace BlockStage

namespace Query

/-! ### Estimates -/

namespace Estimate

def fraction (eighth : Nat) : Int := [0, 2, 3, 5, 6, 7, 8, 9].getD eighth 0

def ofSmall : Nat → Nat → Int → Int
  | 0, _, scale => scale
  | fuel + 1, value, scale =>
      if value < 8 then ofSmall fuel (value * 2) (scale - 10)
      else fraction (value % 8) + scale - 10

def ofLarge : Nat → Nat → Int → Int
  | 0, _, scale => scale
  | fuel + 1, value, scale =>
      if 16 ≤ value then ofLarge fuel (value / 2) (scale + 10)
      else fraction (value % 8) + scale - 10

def ofNat (value : Nat) : Int :=
  if value < 2 then 0
  else if value < 8 then ofSmall 4 value 40
  else ofLarge 64 value 40

/-- What the larger of two estimates gains by the other one, by their distance. -/
def gain (distance : Int) : Int :=
  if 49 < distance then 0
  else if 31 < distance then 1
  else
    ([10, 10, 9, 9, 8, 8, 7, 7, 7, 6, 6, 6, 5, 5, 5, 4, 4, 4, 4, 3, 3, 3, 3, 3, 3, 2, 2, 2, 2, 2, 2,
      2] : List Int).getD distance.toNat 0

def add (first second : Int) : Int :=
  if second ≤ first then first + gain (first - second) else second + gain (second - first)

def log (value : Int) : Int := if value ≤ 10 then 0 else ofNat value.toNat - 33

end Estimate

/-! ### Columns in use -/

mutual

/-- The columns of the sources a number of frames out that an expression uses, with
fuel for the depth. -/
def placesIn : Nat → Nat → Expression → List (Nat × Option Nat)
  | 0, _, _ => []
  | fuel + 1, depth, expression =>
      match expression with
      | .column place _ _ => if place.depth = depth then [(place.source, place.column)] else []
      | .memberOf operand query => placesIn fuel depth operand ++ queryPlaces fuel (depth + 1) query
      | .exist query => queryPlaces fuel (depth + 1) query
      | .scalar query _ => queryPlaces fuel (depth + 1) query
      | .call _ arguments (.manner _ _ order condition window) =>
          (arguments ++ condition.toList ++ order.map OrderTerm.key ++
            window.toList.flatMap Window.expressions).flatMap (placesIn fuel depth)
      | expression => expression.parts.flatMap (placesIn fuel depth)

/-- The columns of the sources a number of frames out that a query uses. -/
def queryPlaces : Nat → Nat → Request → List (Nat × Option Nat)
  | 0, _, _ => []
  | fuel + 1, depth, query =>
      match query with
      | .select _ columns sources condition groups having _ =>
          let values := columns.filterMap ResultColumn.expression?
          let conditions := sources.filterMap Source.condition?
          let queries := sources.filterMap Source.query?
          (values ++ conditions ++ condition.toList ++ groups ++ having.toList).flatMap
            (placesIn fuel depth) ++ queries.flatMap (queryPlaces fuel depth)
      | .values rows => rows.flatten.flatMap (placesIn fuel depth)
      | .compound _ first second => queryPlaces fuel depth first ++ queryPlaces fuel depth second
      | .ordered query order _ _ =>
          (order.map OrderTerm.key).flatMap (placesIn fuel depth) ++
            queryPlaces fuel depth query
      | .withTables _ query => queryPlaces fuel depth query
      | .recursive _ start steps _ _ _ =>
          (start :: steps).flatMap (queryPlaces fuel depth)

end

def placesOf (expression : Expression) : List (Nat × Option Nat) := placesIn lookDepth 0 expression

/-- The conditions that a condition consists of, with fuel for the depth. -/
def conjunctsIn : Nat → Expression → List Expression
  | fuel + 1, .binary .and first second => conjunctsIn fuel first ++ conjunctsIn fuel second
  | _, expression => [expression]

def conjuncts (condition : Option Expression) : List Expression :=
  condition.toList.flatMap (conjunctsIn lookDepth)

/-! ### Plans -/

/-- A condition that a column, or the number of a row, equals a value that is known
before the row is. -/
structure Equation where
  column : Option Nat
  value : Expression
  /-- The collation by which they are compared. -/
  collation : String
  affinity : Affinity

namespace Equation

/-- The equation in a condition with a column on its first side. -/
def ofSides? (first second : Expression) (collation : String) : Option Equation :=
  match first with
  | .column ⟨0, 0, column⟩ affinity _ =>
      if (placesOf second).isEmpty then
        some { column, value := second, collation
               affinity := Pages.Value.sharedAffinity affinity second.affinity? }
      else none
  | _ => none

/-- The equation in a condition on the rows of a single source. -/
def of? : Expression → Option Equation
  | .binary .equal first second =>
      let collation := (first.sharedCollation? second).getD "binary"
      ofSides? first second collation <|> ofSides? second first collation
  | _ => none

/-- Whether an equation on a column can be looked up in a part of an index. -/
def suits (equation : Equation) (table : Table) (part : Part) : Bool :=
  match part.spot with
  | .column position =>
      equation.column == some position && equation.collation == part.collation &&
        match table.columns[position]? with
        | none => false
        | some column =>
            match equation.affinity with
            | .blob => true
            | .text => column.affinity == .text
            | _ => Pages.Value.prefersNumbers column.affinity
  | .number => equation.column == none || equation.column == table.numberColumn
  | .value _ => false

end Equation

/-- A way to the rows of a table. -/
inductive Access where
  /-- All rows, in the order of their numbers. -/
  | numbers (isBackward : Bool)
  /-- The row with a number. -/
  | number (value : Expression)
  /-- The rows whose entries in an index start with some values. -/
  | entries (index : Index) (values : List Expression) (isBackward : Bool)

/-- What is asked of the rows of a table. -/
structure Demand where
  table : Table
  /-- The conditions on a row. -/
  conditions : List Expression
  order : List OrderTerm
  /-- The columns that are used. -/
  used : List Nat
  /-- The number of columns that are computed. -/
  width : Nat
  /-- Whether the rows are to be changed. -/
  isChange : Bool

/-- A way that is considered. -/
structure Candidate where
  access : Access
  /-- Tells ways apart that may come in a useful order. -/
  sortGroup : Nat
  cost : Int
  rows : Int
  isIndexed : Bool := false
  isSingle : Bool := false
  /-- The parts of the index that are given. -/
  given : Nat := 0
  indexWidth : Int := 0

namespace Demand

def rowCount : Int := 200

def equations (demand : Demand) : List Equation := demand.conditions.filterMap Equation.of?

def tableWidth (demand : Demand) : Int :=
  let width := demand.table.columns.foldl (fun sum column => sum + column.width) 0
  Estimate.ofNat ((if demand.table.numberColumn.isNone then width + 1 else width) * 4)

def columnsOf (demand : Demand) (index : Index) : List Nat :=
  let positions := Table.positionsOf index.parts
  if !demand.table.isNumbered && index.isPrimary then demand.table.storedPositions else positions

def entryWidth (demand : Demand) (index : Index) : Int :=
  let others := index.parts.filter fun part =>
    match part.spot with
    | .column _ => false
    | _ => true
  let width := (demand.columnsOf index).foldl
    (fun sum position => sum + ((demand.table.columns[position]?.map Column.width).getD 1))
    others.length
  Estimate.ofNat (width * 4)

/-- Whether the entries of an index have all columns that are used. -/
def covers (demand : Demand) (index : Index) : Bool :=
  let columns := demand.columnsOf index
  demand.used.all fun position =>
    columns.contains position || demand.table.isNumber position

/-- The rows that are taken to agree in so many parts of an index. -/
def rowsFor (index : Index) (given : Nat) : Int :=
  if given = 0 then rowCount - (if index.condition.isSome then 10 else 0)
  else if index.unique.isSome && given == index.keys.length then 0
  else ([33, 32, 30, 28, 27] : List Int).getD (given - 1) 23

def mayOrder (demand : Demand) (positions : List (Option Nat)) : Bool :=
  demand.order.any fun
    | .term key _ _ =>
        let bare := match key with
          | .collate operand _ => operand
          | key => key
        match bare with
        | .column ⟨0, 0, none⟩ _ _ => true
        | .column ⟨0, 0, some position⟩ _ _ =>
            demand.table.isNumber position || positions.contains (some position)
        | _ => false

/-- The rows that are left, given those conditions that a way does not use. -/
def adjusted (demand : Demand) (used : List Equation) (all rows : Int) : Int :=
  let unused := demand.conditions.filter fun condition =>
    match Equation.of? condition with
    | some equation => !used.any fun other =>
        other.column == equation.column && other.collation == equation.collation
    | none => true
  let cut := unused.foldl (fun (cut : Int) condition =>
    match Equation.of? condition with
    | some ⟨_, .literal (.whole value), _, _⟩ =>
        if -1 ≤ value ∧ value ≤ 1 then max cut 10 else max cut 20
    | some _ => max cut 20
    | none => cut) 0
  min (rows - unused.length) (all - cut)

/-- Adds a way to those that are considered, unless one of them is no worse, in place
of those that are no better. -/
def insert (candidates : List Candidate) (candidate : Candidate) : List Candidate :=
  let isRival := fun other : Candidate => other.sortGroup == candidate.sortGroup
  let isBeaten := candidates.find? fun other =>
    isRival other &&
      (decide (other.cost ≤ candidate.cost ∧ other.rows ≤ candidate.rows) ||
        decide (candidate.cost ≤ other.cost ∧ candidate.rows ≤ other.rows))
  match isBeaten with
  | none => candidates ++ [candidate]
  | some other =>
      if other.cost ≤ candidate.cost ∧ other.rows ≤ candidate.rows then candidates
      else
        let isWorse := fun other : Candidate =>
          isRival other && decide (candidate.cost ≤ other.cost ∧ candidate.rows ≤ other.rows)
        let before := candidates.takeWhile fun other => !isWorse other
        let behind := (candidates.drop (before.length + 1)).filter fun other => !isWorse other
        before ++ candidate :: behind

def givenParts (demand : Demand) : List Part → List Equation
  | [] => []
  | part :: parts =>
      match demand.equations.find? fun equation => equation.suits demand.table part with
      | some equation => equation :: demand.givenParts parts
      | none => []

def scanCost (demand : Demand) (index : Index) : Int :=
  let all := rowsFor index 0
  let entries := all + 1 + 15 * demand.entryWidth index / demand.tableWidth
  if demand.covers index then entries
  else
    let columns := demand.columnsOf index
    let isCovered := fun condition : Expression =>
      (placesOf condition).all fun place =>
        match place.2 with
        | some position => columns.contains position || demand.table.isNumber position
        | none => true
    let helpful := demand.conditions.takeWhile isCovered
    let lookups := helpful.foldl (fun (lookups : Int) condition =>
      lookups - 1 - (if (Equation.of? condition).isSome then 19 else 0)) (all + 16)
    Estimate.add entries lookups

/-- The ways that visit entries of an index that start with given values. -/
def givenWays (demand : Demand) (index : Index) (sortGroup : Nat) (given : List Equation) :
    List Candidate :=
  let all := rowsFor index 0
  (List.range given.length).map fun position =>
    let count := position + 1
    let rows := rowsFor index count
    let entries := rows + 1 + 15 * demand.entryWidth index / demand.tableWidth
    let cost := Estimate.add (Estimate.log all) entries
    let cost := if demand.covers index then cost else Estimate.add cost (rows + 16)
    let used := given.take count
    { access := .entries index (used.map Equation.value) false, sortGroup, cost
      rows := demand.adjusted used all rows, isIndexed := true
      isSingle := index.unique.isSome && index.keys.length == 1 && count == 1
      given := count, indexWidth := demand.entryWidth index }

def indexWays (demand : Demand) (index : Index) (group : Nat) : List Candidate :=
  let table := demand.table
  let mayOrder := demand.mayOrder (index.keys.map fun part =>
    match part.spot with
    | .column position => some position
    | _ => none)
  let sortGroup := if mayOrder then group else 0
  let all := rowsFor index 0
  let isNarrow := demand.covers index && decide (demand.entryWidth index < demand.tableWidth) &&
    !demand.isChange
  let scan : Candidate :=
    { access := .entries index [] false, sortGroup, cost := demand.scanCost index
      rows := demand.adjusted [] all all, isIndexed := true
      indexWidth := demand.entryWidth index }
  let scans := if mayOrder || !table.isNumbered || isNarrow then [scan] else []
  scans ++ demand.givenWays index sortGroup (demand.givenParts index.keys)

def numberWays (demand : Demand) : List Candidate :=
  let sortGroup := if demand.mayOrder [none] then 1 else 0
  let scan : Candidate :=
    { access := .numbers false, sortGroup, cost := rowCount + 16
      rows := demand.adjusted [] rowCount rowCount }
  let numbered := demand.equations.find? fun equation =>
    equation.suits demand.table { spot := .number, collation := "binary" }
  scan :: (numbered.map fun equation =>
    { access := .number equation.value, sortGroup, cost := Estimate.add 43 16
      rows := demand.adjusted [equation] rowCount 0, isSingle := true, given := 1 }).toList

def candidates (demand : Demand) : List Candidate :=
  let usable := demand.table.indexes.zipIdx.filter fun (index, _) => index.condition.isNone
  let first := if demand.table.isNumbered then demand.numberWays else []
  let offset := if demand.table.isNumbered then 2 else 1
  (first ++ usable.flatMap fun (index, position) => demand.indexWays index (position + offset)).foldl
    insert []

/-! ### Order -/

/-- A term of the order, as far as it is about a column. -/
structure Wish where
  column : Option (Option Nat)
  collation : String
  descends : Bool
  isPlain : Bool

def wishes (demand : Demand) : List Wish :=
  demand.order.map fun
    | .term key descends nullsLast =>
        let bare := match key with
          | .collate operand _ => operand
          | key => key
        let column := match bare with
          | .column ⟨0, 0, column⟩ _ _ =>
              some (column.filter fun position => !demand.table.isNumber position)
          | _ => none
        { column, collation := (key.collation?).getD "binary", descends
          isPlain := nullsLast.all (· == descends) }

/-- Whether a wish is fulfilled because its column has one value only. -/
def isGiven (demand : Demand) (wish : Wish) : Bool :=
  match wish.column with
  | none => false
  | some column =>
      demand.equations.any fun equation =>
        equation.column == column && (column.isNone || equation.collation == wish.collation)

/-- How far the parts of an index, as columns with their collations and orders, fulfil
wishes: the wishes that are left, whether the order is backward, and whether all
parts of the keys were wished for. -/
def fulfil : List (Option Nat × String × Bool) → Option Bool → List Wish →
    List Wish × Option Bool × Bool
  | [], direction, wishes => (wishes, direction, true)
  | _, direction, [] => ([], direction, false)
  | (column, collation, descends) :: parts, direction, wish :: wishes =>
      let backward := descends != wish.descends
      if wish.column == some column && (column.isNone || wish.collation == collation) &&
          wish.isPlain && direction.all (· == backward) then
        if column.isNone then ([], some backward, true)
        else fulfil parts (some backward) wishes
      else (wish :: wishes, direction, false)

/-- How many wishes a way fulfils, and whether it has to be gone backward. -/
def fulfilled (demand : Demand) (candidate : Candidate) : Nat × Bool :=
  let all := demand.wishes
  let unmet := all.filter fun wish => !demand.isGiven wish
  if candidate.isSingle then (all.length, false)
  else
    let parts : List (Option Nat × String × Bool) := match candidate.access with
      | .entries index _ _ =>
          (index.parts.drop candidate.given).filterMap fun part =>
            match part.spot with
            | .column position => some (some position, part.collation, part.descends)
            | .number => some (none, part.collation, part.descends)
            | .value _ => none
      | _ => [(none, "binary", false)]
    let hasValues := match candidate.access with
      | .entries index _ _ => index.parts.any fun part =>
          match part.spot with
          | .value _ => true
          | _ => false
      | _ => false
    let (left, direction, _) := if hasValues then (unmet, none, false) else fulfil parts none unmet
    (all.length - left.length, direction.getD false)

/-- The cost of bringing rows into an order of which some terms are fulfilled. -/
def sortCost (demand : Demand) (rows : Int) (done : Nat) : Int :=
  let terms := demand.order.length
  let cost := rows + Estimate.ofNat ((demand.width + 59) / 30)
  let cost :=
    if 0 < done then cost + Estimate.ofNat ((terms - done) * 100 / terms) - 66 else cost
  cost + Estimate.log rows

/-- A way with its costs: with the order, and without. -/
structure Weighed where
  candidate : Candidate
  cost : Int
  plainCost : Int
  isOrdered : Bool
  isBackward : Bool

def weigh (demand : Demand) (rows : Int) (candidate : Candidate) : Weighed :=
  let (done, isBackward) := demand.fulfilled candidate
  let plain := Estimate.add candidate.cost 0
  if done < demand.order.length then
    { candidate, cost := Estimate.add plain (demand.sortCost rows done) + 3, plainCost := plain
      isOrdered := false, isBackward }
  else { candidate, cost := plain, plainCost := plain - 2, isOrdered := true, isBackward }

def isBetter (best new : Weighed) : Bool :=
  let isNarrower := new.candidate.isIndexed && best.candidate.isIndexed &&
    decide (new.candidate.indexWidth < best.candidate.indexWidth)
  if new.cost ≠ best.cost then decide (new.cost < best.cost)
  else if new.candidate.rows ≠ best.candidate.rows then
    decide (new.candidate.rows < best.candidate.rows)
  else if new.plainCost ≠ best.plainCost then decide (new.plainCost < best.plainCost)
  else isNarrower

def best (demand : Demand) (rows : Int) (candidates : List Candidate) : Option Weighed :=
  (candidates.map (demand.weigh rows)).foldl
    (fun best new =>
      match best with
      | none => some new
      | some best => some (if isBetter best new then new else best)) none

/-- The way to a single row by its number or by an index without repeats, if the
conditions give all of it. -/
def shortcut? (demand : Demand) : Option Access :=
  let numbered := demand.equations.find? fun equation =>
    demand.table.isNumbered && equation.suits demand.table { spot := .number, collation := "binary" }
  match numbered with
  | some equation => some (.number equation.value)
  | none =>
      demand.table.indexes.findSome? fun index =>
        let given := demand.givenParts index.keys
        if index.unique.isSome && index.condition.isNone && given.length == index.keys.length then
          some (.entries index (given.map Equation.value) false)
        else none

end Demand

/-- A way to the rows of a table, and whether they come in the order that is
wished. -/
structure Plan where
  access : Access
  isOrdered : Bool

def Plan.of (demand : Demand) : Plan :=
  match demand.shortcut? with
  | some access => ⟨access, true⟩
  | none =>
      let candidates := demand.candidates
      let unordered := { demand with order := [] }
      let rows := ((unordered.best 0 candidates).map fun best => best.candidate.rows).getD 0
      match demand.best (rows + 1) candidates with
      | none => ⟨.numbers false, demand.order.isEmpty⟩
      | some best =>
          let access := match best.candidate.access with
            | .numbers _ => .numbers best.isBackward
            | .entries index values _ => .entries index values best.isBackward
            | access => access
          ⟨access, best.isOrdered⟩

end Query

end BlockStage

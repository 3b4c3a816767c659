import BlockStage.Query.Merge
import BlockStage.Query.Visit

/-!
# Computing rows

A selection visits the rows of its sources, keeps those that fulfil its condition,
gathers them into groups if it has to, and computes its columns.  Rows are visited one
by one as long as they are wanted, so that a query of which only the first row is used
looks at no more of the file than it needs.
-/

namespace BlockStage

namespace Query

open Pages (Value Encoding)

/-! ### Sources -/

def Window.sorting : Window → List OrderTerm
  | .named _ => []
  | .window _ partition order _ =>
      partition.map (fun expression => .term expression false none) ++ order

namespace Selection

def expressions (selection : Selection) : List Expression :=
  selection.columns ++ selection.condition.toList ++ selection.groups ++
    selection.having.toList ++ selection.order.map OrderTerm.key

def demand (selection : Selection) (table : Table) : Demand :=
  let order :=
    if selection.groups.isEmpty then
      if selection.isGathered then []
      else
        match selection.window? with
        | some window => window.sorting
        | none => selection.order
    else selection.groups.map fun group => .term group false none
  { table, conditions := conjuncts selection.condition, order
    used := (selection.expressions.flatMap placesOf).filterMap Prod.snd
    width := selection.columns.length, isChange := false }

def table? (selection : Selection) (schema : Schema) : Option Table :=
  match selection.sources with
  | [.source (.table _ name) _ _ none _] => schema.table? name
  | _ => none

end Selection

namespace Engine

variable (inner : Engine)

def fulfilsIn (scene : Scene) (condition : Option Expression) : Work Bool :=
  match condition with
  | none => pure true
  | some condition => do return isTrue (← inner.value scene condition)

def sourceRows (scene : Scene) : Origin → Work (List Row)
  | .table _ name => do
      let table ← Work.take ((← get).schema.table? name)
      let plan := Plan.of
        { table, conditions := [], order := [], used := List.range table.columns.length
          width := table.columns.length, isChange := false }
      let rows ← table.visit inner scene plan.access (fun _ => false)
        (fun rows row => pure (row :: rows, true)) []
      return rows.reverse
  | .query query => do
      let rows ← inner.rows scene query none
      return rows.map fun values => Row.ofValues values .null
  | .recent => return [Row.ofValues scene.recent .null]
  | _ => Work.fail

/-- The rows of a source that join some rows of the earlier ones, by their
positions. -/
def partners (scene : Scene) (condition : Option Expression) (rows : List Row)
    (candidates : List (Row × Nat)) : Work (List (Row × Nat)) :=
  candidates.filterM fun (row, _) =>
    inner.fulfilsIn (scene.within { rows := rows ++ [row] }) condition

/-- The rows of several sources, joined to those of the earlier ones. -/
def joined (scene : Scene) : List Source → Nat → List (List Row) → Work (List (List Row))
  | [], _, rows => pure rows
  | .source origin _ join condition _ :: sources, count, rows => do
      let candidates := (← inner.sourceRows scene origin).zipIdx
      let pairs ← rows.mapM fun earlier => do
        let found ← inner.partners scene condition earlier candidates
        return (earlier, found)
      let matched := pairs.flatMap fun (earlier, found) =>
        if found.isEmpty && join.keepsLeft then [earlier ++ [Row.empty]]
        else found.map fun (row, _) => earlier ++ [row]
      let used := pairs.flatMap fun (_, found) => found.map Prod.snd
      let alone :=
        if join.keepsRight then
          (candidates.filter fun (_, position) => !used.contains position).map
            fun (row, _) => List.replicate count Row.empty ++ [row]
        else []
      joined scene sources (count + 1) (matched ++ alone)

/-- Visits the joined rows of the sources of a selection that fulfil its condition.
Gives also whether they come in the order that is asked for. -/
def visitSources {α : Type} (scene : Scene) (selection : Selection)
    (step : α → List Row → Work (α × Bool)) (start : α) : Work α := do
  let chosen := fun (result : α) (rows : List Row) => do
    if ← inner.fulfilsIn (scene.within { rows }) selection.condition then step result rows
    else pure (result, true)
  match selection.table? (← get).schema with
  | some table =>
      let demand := selection.demand table
      table.visit inner (scene.within { rows := [] }) (Plan.of demand).access demand.covers
        (fun result row => chosen result [row]) start
  | none =>
      let rows ← inner.joined scene selection.sources 0 [[]]
      visitAll chosen start rows
where
  /-- Visits rows as long as they are wanted. -/
  visitAll (step : α → List Row → Work (α × Bool)) (result : α) : List (List Row) → Work α
    | [] => pure result
    | rows :: more => do
        let (result, goesOn) ← step result rows
        if goesOn then visitAll step result more else return result

/-! ### Selections -/

/-- Whether the rows of a selection come in the order that is asked for. -/
def comesOrdered (schema : Schema) (selection : Selection) : Bool :=
  selection.order.isEmpty ||
    match selection.table? schema with
    | some table =>
        !selection.isGathered && selection.window?.isNone &&
          (Plan.of (selection.demand table)).isOrdered
    | none => false

/-- The collations by which the columns of a selection are told apart. -/
def columnCollations (columns : List Expression) : List Collation :=
  columns.map fun column => ((column.collation?).bind Collation.ofName?).getD .binary

/-- A row that has been computed, with the values by which it is ordered. -/
structure Computed where
  values : List Value
  keys : List Value

def computeRow (scene : Scene) (selection : Selection) : Work Computed := do
  let values ← selection.columns.mapM (inner.value scene)
  let keys ← selection.order.mapM fun term => inner.value scene term.key
  return ⟨values, keys⟩

/-- Adds a row to those that have been computed, the newest first, unless only distinct
ones are wanted and it is there already.  Tells whether more are wanted. -/
def addRow (encoding : Encoding) (selection : Selection) (most : Option Nat)
    (rows : List Computed) (row : Computed) : List Computed × Bool :=
  let collations := columnCollations selection.columns
  let isRepeat := selection.isDistinct &&
    rows.any fun other => isSameRow encoding collations row.values other.values
  let rows := if isRepeat then rows else row :: rows
  (rows, most.all fun most => decide (rows.length < most))

def splitGroups {α : Type} (isSame : α → α → Bool) : List α → List (List α)
  | [] => []
  | row :: rows =>
      match splitGroups isSame rows with
      | (next :: group) :: groups =>
          if isSame row next then (row :: next :: group) :: groups
          else [row] :: (next :: group) :: groups
      | groups => [row] :: groups

/-- The row of a group whose values stand for it: the one with the extreme value if the
selection asks for one, and the first otherwise. -/
def chosenRow (scene : Scene) (selection : Selection) (group : List (List Row)) :
    Work (List Row) := do
  let extremes := (selection.columns ++ selection.having.toList).filterMap fun expression =>
    match expression with
    | .call "min" [argument] _ => some (argument, Ordering.lt)
    | .call "max" [argument] _ => some (argument, Ordering.gt)
    | _ => none
  match extremes with
  | [(argument, wanted)] =>
      let encoding ← Work.encoding
      let collation := ((argument.collation?).bind Collation.ofName?).getD .binary
      let values ← group.mapM fun rows => do
        return (rows, ← inner.value (scene.within { rows }) argument)
      let given := values.filter fun (_, value) => !value.isNull
      match given with
      | [] => return group.headD []
      | first :: rest =>
          return (rest.foldl (fun best next =>
            if Value.compare encoding collation next.2 best.2 == wanted then next else best)
            first).1
  | _ => return group.headD []

def groupsOf (scene : Scene) (selection : Selection) : Work (List (List (List Row))) := do
  let encoding ← Work.encoding
  let rows ← inner.visitSources scene selection (fun all rows => do
    let keys ← selection.groups.mapM (inner.value (scene.within { rows }))
    return ((rows, keys) :: all, true)) []
  let rows := rows.reverse
  if selection.groups.isEmpty then return [rows.map Prod.fst]
  else
    let terms := selection.groups.map fun group => OrderTerm.term group false none
    let sorted := rows.mergeSort fun first second => precedes encoding terms first.2 second.2
    let collations := columnCollations selection.groups
    let groups := splitGroups (fun first second => isSameRow encoding collations first.2 second.2)
      sorted
    return groups.map fun group => group.map Prod.fst

/-- The rows that stand for the groups of a selection, with these. -/
def gatheredSights (scene : Scene) (selection : Selection) : Work (List Sight) := do
  let groups ← inner.groupsOf scene selection
  groups.filterMapM fun group => do
    let chosen ← inner.chosenRow scene selection group
    let sight : Sight := { rows := chosen, group := some group }
    if ← inner.fulfilsIn (scene.within sight) selection.having then return some sight
    else return none

/-- What is in sight for each row of a selection that looks around or gathers rows into
groups. -/
def sightsOf (scene : Scene) (selection : Selection) : Work (List Sight) := do
  let sights ←
    if selection.isGathered then inner.gatheredSights scene selection
    else do
      let rows ← inner.visitSources scene selection
        (fun (all : List Sight) rows => return ({ rows } :: all, true)) []
      pure rows.reverse
  match selection.window? with
  | none => return sights
  | some window =>
      let encoding ← Work.encoding
      let terms := window.sorting
      let keyed ← sights.mapM fun sight => do
        let keys ← terms.mapM fun term => inner.value (scene.within sight) term.key
        return (sight, keys)
      let sorted := keyed.mergeSort fun first second => precedes encoding terms first.2 second.2
      let all := sorted.map fun (sight, _) => (sight.rows, sight.group)
      return sorted.zipIdx.map fun ((sight, _), place) => { sight with around := some (all, place) }

/-- The rows of a selection that looks around or gathers rows into groups. -/
def gatheredRows (scene : Scene) (selection : Selection) : Work (List Computed) := do
  let encoding ← Work.encoding
  let sights ← inner.sightsOf scene selection
  let rows ← sights.mapM fun sight => inner.computeRow (scene.within sight) selection
  return (rows.foldl (fun kept row => (addRow encoding selection none kept row).1) []).reverse

def selectionRows (scene : Scene) (selection : Selection) (most : Option Nat) :
    Work (List (List Value)) := do
  let encoding ← Work.encoding
  if most == some 0 then return []
  else
    let isOrdered := comesOrdered (← get).schema selection
    let rows ←
      if selection.isGathered || selection.window?.isSome then inner.gatheredRows scene selection
      else do
        let rows ← inner.visitSources scene selection (fun all rows => do
          let row ← inner.computeRow (scene.within { rows }) selection
          return addRow encoding selection (if isOrdered then most else none) all row) []
        pure rows.reverse
    let sorted :=
      if isOrdered then rows
      else rows.mergeSort fun first second =>
        precedes encoding selection.order first.keys second.keys
    let values := sorted.map Computed.values
    return match most with
      | some most => values.take most
      | none => values

/-! ### Queries -/

def combine (encoding : Encoding) (combination : Combination) (collations : List Collation)
    (first second : List (List Value)) : List (List Value) :=
  let isSame := isSameRow encoding collations
  let sorted := fun rows : List (List Value) =>
    (distinct isSame [] rows.reverse).mergeSort fun first second =>
      isNotBehind collations first second
  match combination with
  | .unionAll => first ++ second
  | .union => sorted (first ++ second)
  | .intersect => sorted (first.filter fun row => second.any (isSame row))
  | .except => sorted (first.filter fun row => !second.any (isSame row))
where
  /-- Whether a row does not come behind another one. -/
  isNotBehind : List Collation → List Value → List Value → Bool
    | collations, first :: firsts, second :: seconds =>
        match Value.compare encoding (collations.headD .binary) first second with
        | .lt => true
        | .gt => false
        | .eq => isNotBehind collations.tail firsts seconds
    | _, _, _ => true

def bound (scene : Scene) : Option Expression → Work (Option Nat)
  | none => pure none
  | some expression => do
      match (← inner.value scene expression).convert .numeric with
      | .whole count => return if count < 0 then none else some count.toNat
      | _ => Work.fail

/-- The collations that the columns of a query have, with fuel for its depth. -/
def ownCollations : Nat → Request → List (Option String)
  | 0, _ => []
  | _ + 1, .select _ columns _ _ _ _ _ =>
      (columns.filterMap ResultColumn.expression?).map Expression.collation?
  | _ + 1, .values rows => (rows.headD []).map Expression.collation?
  | fuel + 1, .compound _ first second =>
      ((ownCollations fuel first).zip (ownCollations fuel second)).map
        fun (first, second) => first <|> second
  | fuel + 1, .ordered query _ _ _ => ownCollations fuel query
  | fuel + 1, .recursive _ start _ _ _ _ => ownCollations fuel start
  | _ + 1, _ => []

/-- The collations by which the rows of a query are told apart. -/
def queryCollations (query : Request) : List Collation :=
  (ownCollations lookDepth query).map fun name => (name.bind Collation.ofName?).getD .binary

/-- The rows of a query that is no selection, in an order. -/
def inOrder (scene : Scene) (order : List OrderTerm) (rows : List (List Value)) :
    Work (List (List Value)) := do
  let encoding ← Work.encoding
  let keyed ← rows.mapM fun values => do
    let within := scene.within { rows := [Row.ofValues values .null] }
    let keys ← order.mapM fun term => inner.value within term.key
    return (values, keys)
  let sorted := keyed.mergeSort fun first second => precedes encoding order first.2 second.2
  return sorted.map Prod.fst

/-- The rows from which a query still has to go on, with what each is ordered by, and
those that have been there, the newest first. -/
structure Progress where
  waiting : List (List Value × List Value) := []
  seen : List (List Value) := []

/-- How a query goes on from its own rows. -/
structure Continuation where
  keepsRepeats : Bool
  steps : List Request
  order : List OrderTerm
  isSame : List Value → List Value → Bool

/-- Lets rows wait, unless they repeat earlier ones that are not kept. -/
def await (scene : Scene) (continuation : Continuation) (progress : Progress)
    (rows : List (List Value)) : Work Progress := do
  let (fresh, seen) := rows.foldl (fun (fresh, seen) row =>
    if continuation.keepsRepeats then (row :: fresh, seen)
    else if seen.any (continuation.isSame row) then (fresh, seen)
    else (row :: fresh, row :: seen)) (([] : List (List Value)), progress.seen)
  let keyed ← fresh.reverse.mapM fun row => do
    let within := scene.within { rows := [Row.ofValues row .null] }
    let keys ← continuation.order.mapM fun term => inner.value within term.key
    return (row, keys)
  let waiting := progress.waiting ++ keyed
  if continuation.order.isEmpty then return { waiting, seen }
  else
    let encoding ← Work.encoding
    return { waiting := waiting.mergeSort fun first second =>
               precedes encoding continuation.order first.2 second.2
             seen }

/-- Goes on from the waiting rows one after the other, with fuel for their number.
Gives them the newest first. -/
def continueFrom (scene : Scene) (continuation : Continuation) :
    Nat → Progress → List (List Value) → Work (List (List Value))
  | 0, _, rows => pure rows
  | fuel + 1, progress, rows =>
      match progress.waiting with
      | [] => pure rows
      | (row, _) :: waiting => do
          let found ← continuation.steps.mapM fun step =>
            inner.rows { scene with recent := row } step none
          let progress ← inner.await scene continuation { progress with waiting } found.flatten
          continueFrom scene continuation fuel progress (row :: rows)

/-- The most rows of a query that goes on from its own rows. -/
def mostContinued : Nat := 5000

/-- The rows of a query, or the first of them, whose parts are computed by an inner
engine. -/
def rowsWith (scene : Scene) (query : Request) (most : Option Nat) : Work (List (List Value)) := do
  match query with
  | .select .. =>
      let selection ← Work.take (Selection.ofQuery? query)
      inner.selectionRows scene selection.merged most
  | .values rows =>
      let rows := match most with
        | some most => rows.take most
        | none => rows
      rows.mapM fun row => row.mapM (inner.value (scene.within { rows := [] }))
  | .compound combination first second =>
      let firstRows ← inner.rows scene first none
      let secondRows ← inner.rows scene second none
      let rows := combine (← Work.encoding) combination (queryCollations query) firstRows secondRows
      return match most with
        | some most => rows.take most
        | none => rows
  | .ordered nested order limit offset =>
      let outside : Scene := { scene with sights := [] }
      let limit ← inner.bound outside limit
      let skipped := (← inner.bound outside offset).getD 0
      let wanted := match limit, most with
        | some limit, some most => some (min limit most + skipped)
        | some limit, none => some (limit + skipped)
        | none, some most => some (most + skipped)
        | none, none => none
      let rows ← match Selection.ofQuery? (.ordered nested order none none) with
        | some selection => inner.selectionRows scene selection.merged wanted
        | none =>
            if order.isEmpty then inner.rows scene nested wanted
            else do
              let rows ← inner.rows scene nested none
              inner.inOrder scene order rows
      let rows := match wanted with
        | some wanted => rows.take wanted
        | none => rows
      return rows.drop skipped
  | .withTables _ _ => Work.fail
  | .recursive keepsRepeats start steps order limit offset =>
      let outside : Scene := { scene with sights := [] }
      let limit ← inner.bound outside limit
      let skipped := (← inner.bound outside offset).getD 0
      let wanted := match limit with
        | some limit => min mostContinued (limit + skipped)
        | none => mostContinued
      let encoding ← Work.encoding
      let collations := queryCollations start
      let continuation : Continuation :=
        { keepsRepeats, steps, order, isSame := isSameRow encoding collations }
      let first ← inner.rows scene start none
      let progress ← inner.await scene continuation {} first
      let rows ← inner.continueFrom scene continuation wanted progress []
      return rows.reverse.drop skipped

def ofDepth : Nat → Engine
  | 0 => { value := fun _ _ => Work.fail, rows := fun _ _ _ => Work.fail }
  | depth + 1 =>
      let inner := ofDepth depth
      { value := inner.valueWith, rows := inner.rowsWith }

def standard : Engine := ofDepth Binder.depth

end Engine

end Query

end BlockStage

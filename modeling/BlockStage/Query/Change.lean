import BlockStage.Query.Keeping

/-!
# Changing rows

A command that changes rows goes from row to row.  Around each change the triggers
that wait for it act, and they may have the row passed over.  A new row that agrees
with an old one breaks a rule, about which the command, the trigger around it or the
rule itself says what is to be done.  References to rows that change are kept by
changing the rows that refer to them.
-/

namespace BlockStage

namespace Query

open Pages (Value Storage)

/-- What surrounds a command. -/
structure Surroundings where
  scene : Scene := {}
  scope : Scope
  /-- What the command around it says about broken rules. -/
  resolution : Option Resolution := none

/-- How commands within triggers are done. -/
structure Runner where
  statement : Surroundings → Statement → Work Unit

namespace Runner

variable (runner : Runner)

/-! ### Triggers -/

def settle : Work Unit :=
  modify fun session => { session with
    changed := session.counted, total := session.total + session.counted, counted := 0 }

def count : Work Unit :=
  modify fun session => { session with counted := session.counted + 1 }

def steps (surroundings : Surroundings) (statements : List Statement) : Work Unit :=
  statements.forM fun statement => do
    runner.statement surroundings statement
    match statement with
    | .query _ => return ()
    | _ => settle

/-- Does something with counts of its own, and tells whether it had a row passed
over. -/
def apart (name : Option String) (work : Work Unit) : Work Bool := do
  let before ← get
  set { before with counted := 0, active := name.toList ++ before.active }
  let isPassed ← Work.orPassed work
  modify fun session => { session with
    counted := before.counted, changed := before.changed, lastNumber := before.lastNumber
    active := before.active }
  return isPassed

def sightOf (old new : Option Tuple) : Sight :=
  { rows := (old.toList ++ new.toList).map Tuple.row }

/-- Lets a trigger act, unless it is at work already. -/
def act (target : Target) (trigger : Trigger) (old new : Option Tuple)
    (resolution : Option Resolution) : RowStep Unit := do
  let session ← get
  if session.active.contains trigger.name then return ()
  else
    let scope := trigger.scope session.schema target
    let scene : Scene := { sights := [sightOf old new] }
    let isPassed ← apart (some trigger.name) (do
      let condition ← Work.take (scope.bindOptional? trigger.condition)
      if ← Engine.standard.fulfilsIn scene condition then
        runner.steps { scene, scope, resolution } trigger.steps
      else return ())
    if isPassed then RowStep.skip else return ()

/-- Lets the triggers act that wait for an event at some time. -/
def fire (name : String) (target : Target) (event : TriggerEvent) (time : TriggerTime)
    (old new : Option Tuple) (resolution : Option Resolution) : RowStep Unit := do
  let triggers := ((← get).schema.triggersFor name event).filter fun trigger =>
    trigger.time == time
  triggers.forM fun trigger => runner.act target trigger old new resolution

/-! ### Rows that refer to changed rows -/

def columnNames (table : Table) (positions : List Nat) : List String :=
  positions.filterMap fun position => (table.columns[position]?).map Column.name

def targetNames (parent : Table) (route : Route) : List String :=
  (Link.targetColumns parent route).filterMap fun column =>
    ((column <|> parent.numberColumn).bind fun position => parent.columns[position]?).map
      Column.name

/-- What is done to the rows of a table that refer to a row. -/
def reactionStatement (child : Table) (pairs : List (String × String)) (isRemoval : Bool)
    (reaction : Reaction) : Option Statement :=
  let condition := Expression.all (pairs.map fun (target, own) =>
    .binary .equal (.name (some "old") target false) (.name none own false))
  let update := fun (value : String → String → Expression) =>
    some (Statement.update
      { table := child.name, label := none, sources := [], condition, resolution := none
        assignments := pairs.map fun (target, own) => ⟨[own], value target own⟩ })
  match reaction with
  | .nothing => none
  | .restrict =>
      some (.query (.select false [.value (.raise .abort) none]
        [.source (.table none child.name) none {} none []] condition [] none []))
  | .cascade =>
      if isRemoval then some (.delete { table := child.name, label := none, condition })
      else update fun target _ => .name (some "new") target false
  | .setNull => update fun _ _ => .null
  | .setDefault => update fun _ own =>
      (((child.position? own).bind fun position => child.columns[position]?).bind
        Column.fallback).getD .null

/-- Whether a row has kept the values to which a reference leads. -/
def keepsTargets (parent : Table) (route : Route) (old new : Tuple) : Work Bool := do
  let encoding ← Work.encoding
  return (Link.targetColumns parent route).all fun column =>
    match column with
    | none => old.number == new.number
    | some position =>
        let collation := (((parent.columns[position]?).map Column.collation).bind
          Collation.ofName?).getD .binary
        Value.compare encoding collation (old.values.getD position .null)
          (new.values.getD position .null) == .eq

/-- Changes the rows that refer to a row that has been changed or removed. -/
def react (table : Table) (old : Tuple) (new : Option Tuple) (assigned : Option Assigned) :
    Work Unit := do
  let schema := (← get).schema
  (schema.linksTo table.name).forM fun (child, link) => do
    let reaction := if new.isSome then link.onUpdate else link.onDelete
    if reaction == .nothing || !(assigned.all (link.isTargetAssignedIn table)) then return ()
    else
      let route ← Work.take (link.route? table)
      let isKept ← match new with
        | none => pure false
        | some new => keepsTargets table route old new
      let pairs := (targetNames table route).zip (columnNames child route.columns)
      match reactionStatement child pairs new.isNone reaction with
      | none => return ()
      | some statement =>
          if isKept then return ()
          else
            let event : TriggerEvent := if new.isSome then .update [] else .delete
            let scope : Scope :=
              { schema, frames := [{ sources := event.sources (.stored table) }]
                rules := { allowsParameters := false, allowsRaise := true } }
            let scene : Scene := { sights := [sightOf (some old) new] }
            let _ ← apart none
              (runner.steps { scene, scope, resolution := some .abort } [statement])
            return ()

/-! ### Removing rows -/

def replaceRow (table : Table) (mark : Mark) : Work Unit := do
  let schema := (← get).schema
  if schema.concernsLinks table none then
    match ← table.place? mark with
    | none => return ()
    | some cursor =>
        let old ← table.tupleOf (table.rowAt Engine.standard cursor)
        keepLinks table (some old) none none
        table.removeRow mark none
        runner.react table old none none
  else table.removeRow mark none

/-- Removes a row, given the entry by which it has been found. -/
def deleteRow (table : Table) (mark : Mark) (found : Option (Index × List Value)) :
    RowStep Unit := do
  let schema := (← get).schema
  let triggers := schema.triggersFor table.name .delete
  let hasLinks := schema.concernsLinks table none
  match ← RowStep.look (table.place? mark) with
  | none => if found.isSome then RowStep.resolve .abort else RowStep.skip
  | some cursor =>
      if triggers.isEmpty && !hasLinks then
        table.removeRow mark found
        count
      else
        let old ← table.tupleOf (table.rowAt Engine.standard cursor)
        let isWarned := triggers.any fun trigger => trigger.time == .before
        runner.fire table.name (.stored table) .delete .before (some old) none none
        if isWarned && (← RowStep.look (table.place? mark)).isNone then RowStep.skip
        else
          keepLinks table (some old) none none
          table.removeRow mark (if isWarned then none else found)
          count
          runner.react table old none none
          runner.fire table.name (.stored table) .delete .after (some old) none none

/-! ### Rows that agree with others -/

/-- A rule by which rows are told apart. -/
inductive Rule where
  | number
  | index (index : Index)

def Rule.isSame : Rule → Rule → Bool
  | .number, .number => true
  | .index first, .index second => first.name == second.name
  | _, _ => false

/-- The row that breaks a rule together with a new one, if there is one.  A row that is
changed does not conflict with itself. -/
def conflict? (table : Table) (tuple : Tuple) (old : Option Tuple) : Rule → Work (Option Mark)
  | .number => do
      if old.any fun old => old.number == tuple.number then return none
      else
        match ← table.find? tuple.number with
        | some _ => return some (.number tuple.number)
        | none => return none
  | .index index => do
      if index.unique.isNone || !(← index.hasEntry tuple.row) then return none
      else
        let values ← index.entryValues tuple.row
        let keys := values.take index.keys.length
        if keys.any Value.isNull then return none
        else
          match ← Table.entryPlace? index keys with
          | none => return none
          | some cursor =>
              if table.isNumbered then
                let number ← Table.entryNumber cursor
                return if old.any fun old => old.number == number then none
                  else some (.number number)
              else
                let encoding ← Work.encoding
                let primary ← Work.take table.primary?
                let positions := Table.positionsOf primary.keys
                let found ← positions.mapM fun position =>
                  if index.isPrimary then table.kept cursor (some position)
                  else do
                    let place ← Work.take (table.entryPosition? index (some position))
                    Table.entryValue cursor place
                let collations := primary.keys.map fun part =>
                  (Collation.ofName? part.collation).getD .binary
                let isOwn := old.any fun old =>
                  Engine.isSameRow encoding collations found
                    (positions.map fun position => old.values.getD position .null)
                return if isOwn then none else some (.keys found)

def upsertFor? (table : Table) (upserts : List Upsert) (rule : Rule) : Option Upsert :=
  upserts.find? fun upsert =>
    upsert.target.isEmpty ||
      match Statement.upsertRule? table upsert.target with
      | some none => rule.isSame .number
      | some (some index) => rule.isSame (.index index)
      | none => false

def rulesOf (table : Table) (resolution : Option Resolution) (upserts : List Upsert)
    (checksNumber : Bool) (chosen : Index → Bool) : List Rule :=
  let indexes := (table.indexes.filter chosen).map Rule.index
  let number : List Rule := if checksNumber then [.number] else []
  let named := upserts.filterMap fun upsert =>
    if upsert.target.isEmpty then none
    else
      match Statement.upsertRule? table upsert.target with
      | some (some index) => some (Rule.index index)
      | _ => none
  let ordered := named ++ indexes.filter fun rule => !named.any rule.isSame
  let isFirstNamed := match upserts with
    | upsert :: _ =>
        !upsert.target.isEmpty && ((Statement.upsertRule? table upsert.target).bind id).isSome
    | [] => false
  if isFirstNamed then ordered.take 1 ++ number ++ ordered.drop 1
  else if resolution.isNone && table.numberRule == .replace && upserts.isEmpty then
    ordered ++ number
  else number ++ ordered

def ruleResolution (table : Table) : Rule → Resolution
  | .number => table.numberRule
  | .index index => index.unique.getD .abort

/-- Deals with rows that agree with a new one in what has to be different, given how
an upsert changes them.  Tells whether rows have been replaced. -/
def clearWay (table : Table) (tuple : Tuple) (old : Option Tuple) (resolution : Option Resolution)
    (upserts : List Upsert) (change : Upsert → Mark → RowStep Unit) (rules : List Rule) :
    RowStep Bool :=
  rules.foldlM (fun isReplaced rule => do
    match ← RowStep.look (conflict? table tuple old rule) with
    | none => return isReplaced
    | some mark =>
        match upsertFor? table upserts rule with
        | some upsert =>
            if upsert.assignments.isSome then change upsert mark
            RowStep.skip
        | none =>
            match resolution.getD (ruleResolution table rule) with
            | .replace =>
                match rule with
                | .number =>
                    if (← get).schema.concernsLinks table none then runner.replaceRow table mark
                    else
                      match ← RowStep.look (table.place? mark) with
                      | some cursor =>
                          table.removeEntries (table.rowAt Engine.standard cursor) fun _ => true
                      | none => return isReplaced
                | .index _ => runner.replaceRow table mark
                return true
            | other => RowStep.resolve other) false

/-! ### Changing rows -/

def isConcerned (schema : Schema) (table : Table) (assigned : Assigned) (index : Index) : Bool :=
  let changesKey := assigned.hasNumber ||
    (!table.isNumbered && table.columns.zipIdx.any fun (column, position) =>
      column.isPrimary && assigned.columns.contains position)
  changesKey || schema.movesRows table assigned || index.isHome table ||
    index.condition.any (table.uses assigned) ||
    index.keys.any fun part =>
      match part.spot with
      | .column position => assigned.columns.contains position
      | .number => assigned.hasNumber
      | .value expression => table.uses assigned expression

def numberOf (value : Value) : Work Int :=
  match value.convert .numeric with
  | .whole number => pure number
  | _ => Work.fail

/-- The values that assignments give, by the positions of their columns; none stands
for the number of the row. -/
def assignedValues (table : Table) (scene : Scene) (assignments : List Assignment) :
    Work (List (Option Nat × Value)) :=
  assignments.mapM fun assignment => do
    let value ← Engine.standard.value scene assignment.value
    return ((assignment.columns.head?).bind table.position?, value)

def withAssigned (table : Table) (base : Row) (number : Int) (given : List (Option Nat × Value)) :
    Work Tuple := do
  let values ← (List.range table.columns.length).mapM fun position => do
    match (given.filter fun (place, _) => place == some position).getLast? with
    | some (_, value) => return value
    | none =>
        if ((table.columns[position]?).bind Column.computed).isSome then return .null
        else base (some position)
  let tuple : Tuple := { values := table.withNumber values number, number }
  return { tuple with values := ← table.compute tuple }

/-- Changes a row.  Expressions are computed in the scene that is made from it. -/
def updateRow (table : Table) (mark : Mark) (assignments : List Assignment)
    (resolution : Option Resolution) (sceneOf : Row → Scene) : RowStep Unit := do
  let schema := (← get).schema
  let names := Statement.assignedNames assignments
  let assigned := table.assignedBy names
  let event : TriggerEvent := .update names
  let triggers := schema.triggersFor table.name event
  let hasLinks := schema.concernsLinks table (some assigned)
  match ← RowStep.look (table.place? mark) with
  | none => RowStep.skip
  | some cursor =>
      let row := table.rowAt Engine.standard cursor
      let oldNumber ← match mark with
        | .number number => pure number
        | .keys _ => pure 0
      let old ←
        if triggers.isEmpty && !hasLinks then pure none
        else do
          let tuple ← table.tupleOf row
          pure (some tuple)
      let given ← assignedValues table (sceneOf row) assignments
      let number ←
        match (given.filter fun (place, _) =>
          place.all fun position => table.isNumber position).getLast? with
        | some (_, value) => numberOf value
        | none => pure oldNumber
      let tuple ← withAssigned table row number given
      let isWarned := triggers.any fun trigger => trigger.time == .before
      let tuple ←
        if isWarned then do
          let tuple := { tuple with values := ← table.settled tuple.values }
          runner.fire table.name (.stored table) event .before old (some tuple) resolution
          match ← RowStep.look (table.place? mark) with
          | none => RowStep.skip
          | some cursor =>
              let given := given.map fun (place, _) =>
                (place, (place.bind fun position => tuple.values[position]?).getD .null)
              withAssigned table (table.rowAt Engine.standard cursor) number given
        else pure tuple
      let tuple ← table.admitted resolution (some assigned) tuple
      let chosen := isConcerned schema table assigned
      let identity ← match old with
        | some old => pure old
        | none => do
            if table.isNumbered then pure { values := [], number := oldNumber }
            else table.tupleOf row
      let changesKey := assigned.hasNumber ||
        (!table.isNumbered && table.columns.zipIdx.any fun (column, position) =>
          column.isPrimary && assigned.columns.contains position)
      let rules := rulesOf table resolution [] (table.isNumbered && assigned.hasNumber) fun index =>
        chosen index && (changesKey || !index.isHome table)
      let _ ← runner.clearWay table tuple (some identity) resolution [] (fun _ _ => pure ()) rules
      match ← RowStep.look (table.place? mark) with
      | none => RowStep.skip
      | some cursor =>
          if hasLinks then keepLinks table old none (some assigned)
          table.removeEntries (table.rowAt Engine.standard cursor) chosen
          if changesKey || schema.movesRows table assigned then
            match ← RowStep.look (table.place? mark) with
            | some cursor => Work.store (Storage.deleteAt cursor)
            | none => (Work.fail : Work Unit)
          if hasLinks then keepLinks table none (some tuple) (some assigned)
          table.writeRow tuple chosen
          count
          match old with
          | some old =>
              if hasLinks then runner.react table old (some tuple) (some assigned)
          | none => pure ()
          runner.fire table.name (.stored table) event .after old (some tuple) resolution

/-! ### Adding rows -/

/-- The columns for which a command gives values: their positions, or none for the
number of the row. -/
def givenColumns (target : Target) (names : List String) : List (Option Nat) :=
  if names.isEmpty then target.givenPositions.map some
  else names.map fun name => target.position? name

/-- The values of a new row, with default values where none are given. -/
def freshValues (table : Table) (given : List (Option Nat × Value)) : Work (List Value) :=
  table.columns.zipIdx.mapM fun (column, position) => do
    match given.find? fun (place, _) => place == some position with
    | some (_, value) => return value
    | none => if column.computed.isSome then return .null else column.fallbackValue

/-- The number that is given for a new row, if there is one. -/
def givenNumber (table : Table) (given : List (Option Nat × Value)) : Option Value :=
  ((given.filter fun (place, _) =>
    place.all fun position => table.isNumber position).getLast?.map Prod.snd).filter
    fun value => table.isNumbered && !value.isNull

def insertRow (surroundings : Surroundings) (table : Table) (insertion : Insertion)
    (resolution : Option Resolution) (given : List (Option Nat × Value)) : RowStep Unit := do
  let schema := (← get).schema
  let target : Target := .stored table
  let triggers := schema.triggersFor table.name .insert
  let base ← freshValues table given
  let wanted := givenNumber table given
  if triggers.any fun trigger => trigger.time == .before then
    let number ← match wanted with
      | some value => numberOf value
      | none => pure (-1)
    let tuple : Tuple := { values := table.withNumber base number, number }
    let values ← table.settled (← table.compute tuple)
    runner.fire table.name target .insert .before none (some { tuple with values }) resolution
  let number ← match wanted with
    | some value => numberOf value
    | none =>
        if !table.isNumbered then pure 0
        else if table.isCounted then Sequence.next table
        else table.nextNumber
  if table.isCounted then
    let sequence ← Sequence.find table
    sequence.note number
  let tuple : Tuple := { values := table.withNumber base number, number }
  let tuple := { tuple with values := ← table.compute tuple }
  let tuple ← table.admitted resolution none tuple
  let change := fun (upsert : Upsert) (mark : Mark) => do
    match ← RowStep.look (table.place? mark) with
    | none => (Work.fail : Work Unit)
    | some cursor =>
        let sceneOf := fun row => surroundings.scene.within { rows := [row, tuple.row] }
        let row := table.rowAt Engine.standard cursor
        if ← Engine.standard.fulfilsIn (sceneOf row) upsert.condition then
          runner.updateRow table mark (upsert.assignments.getD []) (some .abort) sceneOf
        else return ()
  let rules := rulesOf table resolution insertion.upserts table.isNumbered fun _ => true
  let _ ← runner.clearWay table tuple none resolution insertion.upserts change rules
  keepLinks table none (some tuple) none
  table.writeRow tuple fun _ => true
  count
  if table.isNumbered then modify fun session => { session with lastNumber := number }
  runner.fire table.name target .insert .after none (some tuple) resolution

def insert (surroundings : Surroundings) (insertion : Insertion) : Work Unit := do
  let target ← Work.take (Target.of? (← get).schema insertion.table)
  let resolution := surroundings.resolution <|> insertion.resolution
  let rows ← match insertion.query with
    | some query => Engine.standard.rows surroundings.scene query none
    | none => pure [[]]
  let columns := if insertion.query.isSome then givenColumns target insertion.columns else []
  rows.forM fun values => do
    let given := columns.zip values
    match target with
    | .stored table =>
        (runner.insertRow surroundings table insertion resolution given).run
    | .viewed name _ shapes =>
        let values := (List.range shapes.length).map fun position =>
          ((given.find? fun (place, _) => place == some position).map Prod.snd).getD .null
        (runner.fire name target .insert .instead none (some { values, number := -1 })
          resolution).run

/-! ### Rows that are to be changed -/

/-- A row that a command is about to change, with the entry by which it was found. -/
structure Hit where
  mark : Mark
  found : Option (Index × List Value) := none

/-- Whether an expression contains a query, with fuel for the depth. -/
def hasQuery : Nat → Expression → Bool
  | 0, _ => false
  | fuel + 1, expression =>
      match expression with
      | .memberOf .. => true
      | .exist _ => true
      | .scalar .. => true
      | expression => expression.parts.any (hasQuery fuel)

def isSingle : Access → Bool
  | .number _ => true
  | .entries index values _ => index.unique.isSome && values.length == index.keys.length
  | .numbers _ => false

/-- The rows of a table that fulfil a condition.  The entries by which they are found
are of interest if the rows are changed on the way. -/
def hits (surroundings : Surroundings) (table : Table) (condition : Option Expression)
    (others : List Expression) (isPlain : Bool) : Work (List Hit) := do
  let demand : Demand :=
    { table, conditions := conjuncts condition, order := []
      used := ((condition.toList ++ others).flatMap placesOf).filterMap Prod.snd
      width := 1, isChange := true }
  let access := (Plan.of demand).access
  let isOnTheWay := isSingle access ||
    (isPlain && !(condition.any fun condition => hasQuery lookDepth condition))
  let hits ← table.visit Engine.standard (surroundings.scene.within { rows := [] }) access
    (fun _ => false)
    (fun hits row => do
      if ← Engine.standard.fulfilsIn (surroundings.scene.within { rows := [row] }) condition then
        let mark ← table.markOf row
        let found ← match access with
          | .entries index _ _ =>
              if isOnTheWay && !index.isHome table then do
                let values ← index.entryValues row
                pure (some (index, values))
              else pure none
          | _ => pure none
        return ({ mark, found } :: hits, true)
      else return (hits, true)) []
  return hits.reverse

def viewRows (surroundings : Surroundings) (query : Request) (columns : List ColumnShape)
    (condition : Option Expression) : Work (List (List Value)) :=
  Engine.standard.rows surroundings.scene
    (.select false (columns.zipIdx.map fun (column, position) =>
      .value (.column ⟨0, 0, some position⟩ column.affinity column.collation) none)
      [.source (.query query) none {} none []] condition [] none []) none

def update (surroundings : Surroundings) (change : Update) : Work Unit := do
  let schema := (← get).schema
  let target ← Work.take (Target.of? schema change.table)
  let resolution := surroundings.resolution <|> change.resolution
  match target with
  | .stored table =>
      let hits ← hits surroundings table change.condition
        (change.assignments.map Assignment.value) false
      hits.forM fun hit =>
        (runner.updateRow table hit.mark change.assignments resolution fun row =>
          surroundings.scene.within { rows := [row] }).run
  | .viewed name query columns =>
      let rows ← viewRows surroundings query columns change.condition
      rows.forM fun values => do
        let old : Tuple := { values, number := -1 }
        let scene := surroundings.scene.within { rows := [old.row] }
        let given ← change.assignments.mapM fun assignment => do
          let value ← Engine.standard.value scene assignment.value
          return ((assignment.columns.head?).bind fun name => target.position? name, value)
        let new := values.zipIdx.map fun (value, position) =>
          (((given.filter fun (place, _) => place == some position).getLast?).map Prod.snd).getD
            value
        (runner.fire name target (.update (Statement.assignedNames change.assignments)) .instead
          (some old) (some { values := new, number := -1 }) resolution).run

def deleteAll (table : Table) : Work Unit := do
  let counted ←
    if table.isNumbered then Work.store (Storage.clear table.root) else pure 0
  let cleared ← table.indexes.mapM fun index => do
    let count ← Work.store (Storage.clear index.root)
    return if index.isHome table then count else 0
  modify fun session => { session with
    counted := session.counted + counted + (cleared.foldl (· + ·) 0 : Nat) }

def delete (surroundings : Surroundings) (removal : Removal) : Work Unit := do
  let schema := (← get).schema
  let target ← Work.take (Target.of? schema removal.table)
  match target with
  | .stored table =>
      let isPlain := (schema.triggersFor table.name .delete).isEmpty &&
        !schema.concernsLinks table none
      if isPlain && removal.condition.isNone then deleteAll table
      else
        let hits ← hits surroundings table removal.condition [] isPlain
        hits.forM fun hit => (runner.deleteRow table hit.mark hit.found).run
  | .viewed name query columns =>
      let rows ← viewRows surroundings query columns removal.condition
      rows.forM fun values =>
        (runner.fire name target .delete .instead (some { values, number := -1 }) none none).run

/-! ### Commands -/

/-- Does a command, whose triggers are done by an inner runner. -/
def statementWith (surroundings : Surroundings) (statement : Statement) : Work Unit := do
  match ← Work.take (statement.bind? surroundings.scope) with
  | .query query => discard (Engine.standard.rows surroundings.scene query none)
  | .insert insertion => runner.insert surroundings insertion
  | .update change => runner.update surroundings change
  | .delete removal => runner.delete surroundings removal

/-- A runner that goes down to a depth of triggers within triggers. -/
def ofDepth : Nat → Runner
  | 0 => { statement := fun _ _ => Work.fail }
  | depth + 1 => { statement := (ofDepth depth).statementWith }

def standard : Runner := ofDepth Binder.depth

end Runner

namespace Work

/-- Does a command with some values given to it.  Everything that it may set off has to
be in order first. -/
def execute (statement : Statement) (parameters : List Value) : Work Unit := do
  let schema := (← get).schema
  take (statement.check? schema)
  modify fun session => { session with dangling := 0, counted := 0, sequences := [] }
  Runner.standard.statement { scene := { parameters }, scope := { schema } } statement
  Sequence.writeAll
  require (decide ((← get).dangling ≤ 0))
  Runner.settle

/-- Computes the rows of a query with some values given to it, or the first of them. -/
def ask (query : Request) (parameters : List Value) (most : Option Nat) :
    Work (List (List Value)) := do
  let (bound, _) ← take (Scope.bindQuery? { schema := (← get).schema } query)
  Engine.standard.rows { parameters } bound most

/-- Finishes the work: no reference may be left without a target. -/
def finish : Work Unit := do require (decide ((← get).deferred ≤ 0))

end Work

end Query

end BlockStage

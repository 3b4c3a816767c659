import BlockStage.Query.Rule

/-!
# Keeping references

A reference without a target is counted when it arises and taken off when it is
mended.  The command, or the work as a whole for references that are checked late,
only succeeds if nothing is left at its end.
-/

namespace BlockStage

namespace Query

open Pages (Value)

namespace Link

def adjust (link : Link) (count : Int) : Work Unit :=
  modify fun session =>
    if link.isDeferred then { session with deferred := session.deferred + count }
    else { session with dangling := session.dangling + count }

def isSettled (link : Link) : Work Bool := do
  let session ← get
  return if link.isDeferred then session.deferred == 0 else session.dangling == 0

def leadsToItself (parent : Table) (route : Route) (tuple : Tuple) (values : List Value) :
    Work Bool := do
  let encoding ← Work.encoding
  let targets := (targetColumns parent route).map fun column =>
    match column with
    | some position => tuple.values.getD position .null
    | none => .whole tuple.number
  return (values.zip targets).all fun (value, target) =>
    !target.isNull && Value.compare encoding .binary value target == .eq

/-- Whether there is a row with the values to which a reference leads. -/
def hasTarget (parent : Table) (route : Route) (values : List Value) : Work Bool := do
  match route.index with
  | none =>
      match (values.headD .null).convert .numeric with
      | .whole number => return (← parent.find? number).isSome
      | _ => return false
  | some index =>
      let converted := (index.keys.zip values).map fun (part, value) =>
        match part.spot with
        | .column position =>
            match parent.columns[position]? with
            | some column => value.convert column.affinity
            | none => value
        | _ => value
      return (← Table.entryPlace? index converted).isSome

def countOwn (link : Link) (child : Table) (tuple : Tuple) (count : Int) : Work Unit := do
  let parent ← Work.take ((← get).schema.table? link.table)
  let route ← Work.take (link.route? parent)
  let values := route.columns.map fun position => tuple.values.getD position .null
  if count < 0 && (← link.isSettled) then return ()
  else if values.any Value.isNull then return ()
  else
    let isOwn ←
      if 0 < count && parent.name == child.name then leadsToItself parent route tuple values
      else pure false
    if isOwn || (← hasTarget parent route values) then return ()
    else link.adjust count

/-- The condition that a row in sight refers to one that is further out. -/
def condition (parent child : Table) (route : Route) (isRemoved : Bool) :
    List Expression :=
  let side := fun (depth : Nat) (table : Table) (column : Option Nat) =>
    match column.filter fun position => !table.isNumber position with
    | none => Expression.column ⟨depth, 0, none⟩ (some .integer) none
    | some position =>
        let shape := table.columns[position]?
        .column ⟨depth, 0, some position⟩ (shape.map Column.affinity) (shape.map Column.collation)
  let target := fun (column : Option Nat) =>
    match column with
    | none => side 1 parent none
    | some position =>
        .collate (side 1 parent column)
          (((parent.columns[position]?).map Column.collation).getD "binary")
  let equations := ((targetColumns parent route).zip route.columns).map
    fun (column, position) => Expression.binary .equal (target column) (side 0 child (some position))
  let exclusion :=
    if isRemoved && parent.name == child.name then
      if child.isNumbered then [Expression.binary .unequal (side 1 parent none) (side 0 child none)]
      else
        (Expression.all ((targetColumns parent route).map fun column =>
          .binary .is (side 1 parent column) (side 0 child column))).toList.map (.unary .not ·)
    else []
  equations ++ exclusion

/-- The number of rows that refer to a row, apart from that row itself if it is being
removed. -/
def countReferring (link : Link) (parent child : Table) (tuple : Tuple) (isRemoved : Bool) :
    Work Int := do
  let route ← Work.take (link.route? parent)
  let conditions := condition parent child route isRemoved
  let demand : Demand :=
    { table := child, conditions, order := []
      used := (conditions.flatMap placesOf).filterMap Prod.snd, width := 1, isChange := false }
  let scene : Scene := { sights := [{ rows := [tuple.row] }] }
  child.visit Engine.standard (scene.within { rows := [] }) (Plan.of demand).access demand.covers
    (fun count row => do
      let isReferring ← Engine.standard.fulfilsIn (scene.within { rows := [row] })
        (Expression.all conditions)
      return (if isReferring then count + 1 else count, true)) 0

def countTheirs (link : Link) (parent child : Table) (tuple : Tuple) (sign : Int) : Work Unit := do
  if sign < 0 && (← link.isSettled) then return ()
  else link.adjust (sign * (← link.countReferring parent child tuple (decide (0 < sign))))

end Link

/-- Counts the references that a row brings or takes along, given the columns that
are assigned if it is only changed. -/
def keepLinks (table : Table) (old new : Option Tuple) (assigned : Option Assigned) :
    Work Unit := do
  let schema := (← get).schema
  table.links.forM fun link => do
    if assigned.all fun assigned =>
        link.table == table.name || link.isAssignedIn table assigned then
      if let some tuple := old then link.countOwn table tuple (-1)
      if let some tuple := new then link.countOwn table tuple 1
    else return ()
  (schema.linksTo table.name).forM fun (child, link) => do
    if assigned.all (link.isTargetAssignedIn table) then
      if let some tuple := new then link.countTheirs table child tuple (-1)
      if let some tuple := old then link.countTheirs table child tuple 1
    else return ()

end Query

end BlockStage

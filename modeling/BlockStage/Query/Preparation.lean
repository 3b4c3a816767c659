import BlockStage.Query.Link
import BlockStage.Query.Schema

/-!
# Preparing commands

Before a command changes any row, its names are bound, and so are those of all
triggers that it may set off and of the commands in them.  A command for which that
fails changes nothing, even if the trigger in question would not have acted.
-/

namespace BlockStage

namespace Query

/-! ### What is changed -/

/-- What the rows of a command belong to. -/
inductive Target where
  | stored (table : Table)
  | viewed (name : String) (query : Request) (columns : List ColumnShape)

namespace Target

/-- The table or view with a name, if it can be changed at all. -/
def of? (schema : Schema) (name : String) : Option Target :=
  match schema.table? name with
  | some table => if Schema.isCatalogue name then none else some (.stored table)
  | none =>
      match schema.view? name with
      | some view =>
          (Binder.standard.view { schema } view).map fun (query, columns) =>
            .viewed name query columns
      | none => none

def shape (label : String) : Target → SourceShape
  | .stored table => table.shape label
  | .viewed _ _ columns => { label, columns }

def table? : Target → Option Table
  | .stored table => some table
  | .viewed .. => none

def position? (name : String) : Target → Option Nat
  | .stored table => table.position? name
  | .viewed _ _ columns => columns.findIdx? fun column => column.name == name

def isComputed (position : Nat) : Target → Bool
  | .stored table => (table.columns[position]?.bind Column.computed).isSome
  | .viewed .. => false

def isNumberName (name : String) (target : Target) : Bool :=
  (target.position? name).isNone && Frame.numberNames.contains name &&
    (target.table?.map Table.isNumbered).getD false

def mayAssign (name : String) (target : Target) : Bool :=
  match target.position? name with
  | some position => !target.isComputed position
  | none => target.isNumberName name

/-- The positions of the columns for which a row has to have values when none are
named. -/
def givenPositions (target : Target) : List Nat :=
  match target with
  | .stored table =>
      (List.range table.columns.length).filter fun position => !target.isComputed position
  | .viewed _ _ columns => List.range columns.length

end Target

/-! ### Triggers -/

namespace TriggerEvent

/-- Whether a trigger that waits for an event is concerned by another one. -/
def covers : TriggerEvent → TriggerEvent → Bool
  | .insert, .insert => true
  | .delete, .delete => true
  | .update [], .update _ => true
  | .update columns, .update assigned => columns.any assigned.contains
  | _, _ => false

end TriggerEvent

namespace Schema

/-- The triggers of a table or view that an event sets off. -/
def triggersFor (schema : Schema) (name : String) (event : TriggerEvent) : List Trigger :=
  (schema.triggersOf name).filter fun trigger => trigger.event.covers event

end Schema

def TriggerEvent.sources (target : Target) : TriggerEvent → List SourceShape
  | .insert => [{ target.shape "new" with isNamedOnly := true }]
  | .delete => [{ target.shape "old" with isNamedOnly := true }]
  | .update _ =>
      [{ target.shape "old" with isNamedOnly := true },
        { target.shape "new" with isNamedOnly := true }]

def Trigger.scope (trigger : Trigger) (schema : Schema) (target : Target) : Scope :=
  { schema, frames := [{ sources := trigger.event.sources target }]
    rules := { allowsParameters := false, allowsRaise := true } }

/-! ### Binding commands -/

namespace Statement

/-- Whether rows of a target may be changed by an event: those of a view only if a
trigger acts in place of the change. -/
def mayChange (schema : Schema) (target : Target) (event : TriggerEvent) : Bool :=
  match target with
  | .stored _ => true
  | .viewed name _ _ => !(schema.triggersFor name event).isEmpty

/-- Binds the value of an assignment as assignments of single columns. -/
def single? (scope : Scope) : Assignment → Option (List Assignment)
  | ⟨[column], value⟩ => (scope.bind? value).map fun value => [⟨[column], value⟩]
  | ⟨columns, value⟩ => do
      let values ← Binder.standard.together scope value
      if columns.length = values.length then
        some ((columns.zip values).map fun (column, value) => ⟨[column], value⟩)
      else none

def bindAssignments? (scope : Scope) (target : Target) (assignments : List Assignment) :
    Option (List Assignment) := do
  let assignments ← assignments.mapM (single? scope)
  if assignments.flatten.all fun assignment =>
      assignment.columns.all fun name => target.mayAssign name then some assignments.flatten
  else none

def assignedNames (assignments : List Assignment) : List String :=
  assignments.flatMap Assignment.columns

/-- The index whose rule the target of an upsert names; none stands for the numbers of
the rows. -/
def upsertRule? (table : Table) (terms : List OrderTerm) : Option (Option Index) := do
  let named ← terms.mapM fun
    | .term key _ _ => do
        let bound ← (table.scope Table.checkRules).bind? key
        match bound with
        | .column ⟨_, _, column⟩ _ _ => some (column, none)
        | .collate (.column ⟨_, _, column⟩ _ _) collation => some (column, some collation)
        | _ => none
  let isNumber := match named with
    | [(none, none)] => table.isNumbered
    | [(some position, none)] => table.isNumber position
    | _ => false
  if isNumber then some none
  else
    let fits := fun index : Index =>
      index.unique.isSome && index.condition.isNone && index.keys.length == named.length &&
        index.keys.all fun part =>
          named.any fun (column, collation) =>
            (match part.spot with
              | .column position => column == some position
              | .number => column == table.numberColumn
              | .value _ => false) && collation.all (· == part.collation)
    (table.indexes.find? fits).map some

/-- Binds what is done about rows that agree with old ones. -/
def bindUpsert? (scope : Scope) (table : Table) (upsert : Upsert) : Option Upsert := do
  if !upsert.target.isEmpty then discard (upsertRule? table upsert.target)
  let within := scope.within
    { sources := [table.shape table.name, { table.shape "excluded" with isNamedOnly := true }] }
  match upsert.assignments with
  | none => some upsert
  | some assignments => do
      let assignments ← bindAssignments? within (.stored table) assignments
      let condition ← within.bindOptional? upsert.condition
      some { upsert with assignments := some assignments, condition }

def bindInsertion? (scope : Scope) (insertion : Insertion) : Option Insertion := do
  let target ← Target.of? scope.schema insertion.table
  let names := insertion.columns
  let count := if names.isEmpty then target.givenPositions.length else names.length
  if !mayChange scope.schema target .insert || !(names.all fun name => target.mayAssign name) then
    none
  else
    let query ← match insertion.query with
      | none => some none
      | some asked => do
          let (bound, columns) ← scope.bindQuery? asked
          if columns.length = count then some (some bound) else none
    match target with
    | .stored table =>
        let upserts ← insertion.upserts.mapM (bindUpsert? scope table)
        some { insertion with query, upserts }
    | .viewed .. => if insertion.upserts.isEmpty then some { insertion with query } else none

def bind? (scope : Scope) : Statement → Option Statement
  | .query asked => (scope.bindQuery? asked).map fun (bound, _) => .query bound
  | .insert insertion => (bindInsertion? scope insertion).map .insert
  | .update change => do
      let target ← Target.of? scope.schema change.table
      let within := scope.within { sources := [target.shape (change.label.getD change.table)] }
      if !change.sources.isEmpty then none
      else
        let assignments ← bindAssignments? within target change.assignments
        if !mayChange scope.schema target (.update (assignedNames assignments)) then none
        else
          let condition ← within.bindOptional? change.condition
          some (.update { change with assignments, condition })
  | .delete removal => do
      let target ← Target.of? scope.schema removal.table
      let within := scope.within { sources := [target.shape (removal.label.getD removal.table)] }
      if !mayChange scope.schema target .delete then none
      else
        let condition ← within.bindOptional? removal.condition
        some (.delete { removal with condition })

end Statement

/-! ### Columns that change with others -/

namespace Table

/-- Whether an expression of the table uses one of some columns. -/
def uses (table : Table) (assigned : Assigned) (expression : Expression) : Bool :=
  (go lookDepth expression).any fun column =>
    match column with
    | some position => assigned.has table position
    | none => assigned.hasNumber
where
  /-- The columns that an expression uses. -/
  go : Nat → Expression → List (Option Nat)
    | 0, _ => []
    | _ + 1, .column place _ _ => [place.column]
    | fuel + 1, expression => expression.parts.flatMap (go fuel)

/-- The columns that are assigned, together with those that are computed from them, with
fuel for those that are computed from each other. -/
def withDependents (table : Table) : Nat → Assigned → Assigned
  | 0, assigned => assigned
  | fuel + 1, assigned =>
      let dependents := (List.range table.columns.length).filter fun position =>
        !assigned.columns.contains position &&
          match table.columns[position]?.bind Column.computed with
          | some (value, _) => table.uses assigned value
          | none => false
      if dependents.isEmpty then assigned
      else table.withDependents fuel { assigned with columns := assigned.columns ++ dependents }

def assignedBy (table : Table) (names : List String) : Assigned :=
  let columns := names.filterMap table.position?
  let hasNumber := names.any fun name =>
    match table.position? name with
    | some position => table.isNumber position
    | none => true
  table.withDependents table.columns.length { columns, hasNumber }

end Table

/-! ### Checking everything that may happen -/

/-- A change that may happen. -/
structure Prospect where
  name : String
  event : TriggerEvent
  /-- Whether it sets off triggers. -/
  firesTriggers : Bool := true
  /-- Whether it is looked at together with other changes. -/
  isOneOfMany : Bool := true

namespace Prospect

/-- Whether the references that a change concerns lead somewhere. -/
def hasSoundLinks (schema : Schema) (prospect : Prospect) (table : Table) : Bool :=
  let assigned := match prospect.event with
    | .update names => some (table.assignedBy names)
    | _ => none
  let isSound := fun (link : Link) (parent : Option Table) =>
    (parent.bind link.route?).isSome
  (table.links.all fun link =>
    let isConcerned := assigned.all fun assigned =>
      link.table == table.name || link.isAssignedIn table assigned
    !isConcerned || isSound link (schema.table? link.table)) &&
  (schema.linksTo table.name).all fun (_, link) =>
    let isConcerned := assigned.all (link.isTargetAssignedIn table) &&
      (prospect.isOneOfMany || link.isDeferred || prospect.event != .insert)
    !isConcerned || isSound link (some table)

/-- The changes to other tables that follow from references. -/
def reactions (schema : Schema) (prospect : Prospect) (table : Table) : List Prospect :=
  (schema.linksTo table.name).filterMap fun (child, link) =>
    let names := link.columns.filterMap fun position =>
      child.columns[position]?.map Column.name
    match prospect.event with
    | .insert => none
    | .delete =>
        match link.onDelete with
        | .nothing => none
        | .restrict => none
        | .cascade => some { name := child.name, event := .delete }
        | _ => some { name := child.name, event := .update names }
    | .update changed =>
        if !link.isTargetAssignedIn table (table.assignedBy changed) then none
        else
          match link.onUpdate with
          | .nothing => none
          | .restrict => none
          | _ => some { name := child.name, event := .update names }

def mark (prospect : Prospect) : String :=
  let event := match prospect.event with
    | .insert => "insert"
    | .delete => "delete"
    | .update names => "update of " ++ ",".intercalate names
  event ++ " " ++ prospect.name

end Prospect

namespace Statement

/-- Whether a table has a rule that replaces rows, or a command asks for that. -/
def mayReplace (table : Table) (resolution : Option Resolution) : Bool :=
  match resolution with
  | some resolution => resolution == .replace
  | none =>
      table.numberRule == .replace || table.indexes.any fun index => index.unique == some .replace

/-- Whether a query gives just one row that is written out. -/
def isSingleRow : Option Request → Bool
  | some (.values [_]) => true
  | none => true
  | _ => false

def prospects (schema : Schema) (isTop : Bool) : Statement → List Prospect
  | .query _ => []
  | .insert insertion =>
      let updates := insertion.upserts.filterMap fun upsert =>
        upsert.assignments.map fun assignments =>
          { name := insertion.table, event := .update (assignedNames assignments) : Prospect }
      let replaces := match schema.table? insertion.table with
        | some table => mayReplace table insertion.resolution
        | none => false
      let changesLinks := match schema.table? insertion.table with
        | some table => updates.any fun update =>
            match update.event with
            | .update names => schema.concernsLinks table (some (table.assignedBy names))
            | _ => false
        | none => false
      let firesUpdates := updates.any fun update =>
        !(schema.triggersFor insertion.table update.event).isEmpty
      let isOneOfMany := !isTop || !isSingleRow insertion.query || replaces || changesLinks ||
        firesUpdates || !(schema.triggersFor insertion.table .insert).isEmpty
      let removal : List Prospect :=
        if replaces then
          [{ name := insertion.table, event := .delete, firesTriggers := false }]
        else []
      { name := insertion.table, event := .insert, isOneOfMany } :: updates ++ removal
  | .update change =>
      let replaces := match schema.table? change.table with
        | some table => mayReplace table change.resolution
        | none => false
      let removal : List Prospect :=
        if replaces then [{ name := change.table, event := .delete, firesTriggers := false }] else []
      { name := change.table, event := .update (assignedNames change.assignments) } :: removal
  | .delete removal => [{ name := removal.table, event := .delete }]

mutual

/-- Checks a command and all that it may set off, with fuel for the depth.  Gives what
has been looked at. -/
def checkIn? : Nat → Scope → Bool → List String → Statement → Option (List String)
  | 0, _, _, _, _ => none
  | fuel + 1, scope, isTop, seen, statement => do
      let bound ← bind? scope statement
      (bound.prospects scope.schema isTop).foldlM (checkProspect? fuel scope.schema) seen

def checkProspect? : Nat → Schema → List String → Prospect → Option (List String)
  | 0, _, _, _ => none
  | fuel + 1, schema, seen, prospect => do
      let target ← Target.of? schema prospect.name
      let triggers :=
        if prospect.firesTriggers then schema.triggersFor prospect.name prospect.event else []
      let seen ← triggers.foldlM (fun seen trigger => do
        if seen.contains trigger.name then some seen
        else
          let scope := trigger.scope schema target
          discard (scope.bindOptional? trigger.condition)
          trigger.steps.foldlM (checkIn? fuel scope false) (trigger.name :: seen)) seen
      match target with
      | .viewed .. => some seen
      | .stored table =>
          if !prospect.hasSoundLinks schema table then none
          else
            (prospect.reactions schema table).foldlM (fun seen reaction =>
              if seen.contains reaction.mark then some seen
              else checkProspect? fuel schema (reaction.mark :: seen) reaction) seen

end

/-- Whether a command and all that it may set off are in order. -/
def check? (schema : Schema) (statement : Statement) : Option Unit :=
  (checkIn? Binder.depth { schema } true [] statement).map fun _ => ()

end Statement

end Query

end BlockStage

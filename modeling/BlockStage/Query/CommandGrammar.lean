import BlockStage.Query.Grammar
import BlockStage.Query.Statement

/-!
# The grammar of commands

A command ends at a semicolon or with its text.  What stands behind a semicolon
is another command and is not looked at.
-/

namespace BlockStage

namespace Query

open Parse

namespace Grammar

/-! ### Changing rows -/

def resolutions : List (String × Resolution) :=
  [("rollback", .rollback), ("abort", .abort), ("fail", .fail), ("ignore", .ignore),
    ("replace", .replace)]

def resolution : Parse Resolution := do
  match resolutions.lookup (← expectOne (resolutions.map Prod.fst)) with
  | some found => return found
  | none => fail

/-- Takes the way to deal with broken rules of a change, if there is one. -/
def changeResolution : Parse (Option Resolution) := behind "or" resolution

def assignments (grammar : Grammar) : Parse (List Assignment) :=
  separated (do
    let columns ←
      if (← peek) = some (.sign "(") then bracketed (separated takeName)
      else (fun name => [name]) <$> takeName
    expectSign "="
    return ⟨columns, ← grammar.expression 1⟩)

/-- Takes what is done about rows that agree with old ones, if that is told. -/
def upsert? (grammar : Grammar) : Parse (Option Upsert) := do
  if ← acceptKeys ["on", "conflict"] then
    let target ←
      if (← peek) = some (.sign "(") then bracketed (separated (orderTerm grammar)) else pure []
    let targetCondition ←
      if target.isEmpty then pure none else behind "where" (grammar.expression 1)
    expectKeys ["do"]
    if ← acceptKey "nothing" then return some ⟨target, targetCondition, none, none⟩
    else
      expectKeys ["update", "set"]
      let changes ← assignments grammar
      return some ⟨target, targetCondition, some changes, ← behind "where" (grammar.expression 1)⟩
  else return none

def insertion (grammar : Grammar) (resolution : Option Resolution) : Parse Insertion := do
  expectKeys ["into"]
  let table ← takeName
  let columns ←
    if (← peek) = some (.sign "(") then bracketed (separated takeName) else pure []
  let query ← grammar.query
  let upserts ← many (upsert? grammar)
  return { table, columns, query := some query, resolution, upserts }

def statement (grammar : Grammar) : Parse Statement := do
  if ← acceptKey "insert" then
    return .insert (← insertion grammar (← changeResolution))
  else if ← acceptKey "replace" then return .insert (← insertion grammar (some .replace))
  else if ← acceptKey "update" then
    let resolution ← changeResolution
    let table ← takeName
    expectKeys ["set"]
    let assignments ← assignments grammar
    let origins ← behind "from" (do sources grammar ((← get).length + 1) {})
    let condition ← behind "where" (grammar.expression 1)
    return .update
      { table, label := none, assignments, sources := origins.getD [], condition, resolution }
  else if ← acceptKeys ["delete", "from"] then
    let table ← takeName
    return .delete { table, label := none, condition := ← behind "where" (grammar.expression 1) }
  else return .query (← grammar.query)

/-! ### Columns -/

/-- Takes the way to deal with a broken rule, if there is one. -/
def ruleResolution : Parse (Option Resolution) := do
  if ← acceptKeys ["on", "conflict"] then return some (← resolution) else return none

def fallback (grammar : Grammar) : Parse Expression := do
  if (← peek) = some (.sign "(") then bracketed (grammar.expression 1)
  else
    let isMinus ← acceptSign "-"
    let isPlus ← if isMinus then pure false else acceptSign "+"
    match ← peek with
    | some (.number digits) =>
        let _ ← next
        match numeral? isMinus digits with
        | some value => return .literal value
        | none => fail
    | _ =>
        match ← literal? with
        | some value => return if isMinus then .unary .minus value else value
        | none =>
            if isMinus || isPlus then fail
            else
              let written ← takeWritten
              if written.toLower = "true" then return .whole 1
              else if written.toLower = "false" then return .whole 0
              else return .literal (.text (bytesOfText written))

/-- Takes what is done to rows that refer to one that is changed or removed. -/
def reaction : Parse Reaction := do
  if ← acceptKeys ["set", "null"] then return .setNull
  else if ← acceptKeys ["set", "default"] then return .setDefault
  else if ← acceptKeys ["no", "action"] then return .nothing
  else if ← acceptKey "cascade" then return .cascade
  else
    expectKeys ["restrict"]
    return .restrict

/-- Takes what is done about references, with fuel for its parts. -/
def reactions : Nat → Reference → Parse Reference
  | 0, reference => return reference
  | fuel + 1, reference => do
      if ← acceptKeys ["on", "delete"] then
        reactions fuel { reference with onDelete := ← reaction }
      else if ← acceptKeys ["on", "update"] then
        reactions fuel { reference with onUpdate := ← reaction }
      else if ← acceptKeys ["on", "insert"] then
        let _ ← reaction
        reactions fuel reference
      else if ← acceptKey "match" then
        let _ ← takeName
        reactions fuel reference
      else return reference

/-- Takes a name of a column, with an order that does not count. -/
def columnName : Parse String := do
  let name ← takeName
  if ← acceptKey "collate" then let _ ← takeName
  let _ ← direction
  return name

def columnNames : Parse (List String) := bracketed (separated columnName)

def reference : Parse Reference := do
  let table ← takeName
  let columns ← if (← peek) = some (.sign "(") then columnNames else pure []
  reactions ((← get).length + 1) { table, columns }

/-- Takes the time at which references are checked, if it is told. -/
def deferral? : Parse (Option Bool) := do
  let isNegated ← acceptKeys ["not", "deferrable"]
  let isPlain ← if isNegated then pure false else acceptKey "deferrable"
  if isNegated || isPlain then
    let isDeferred ←
      if ← acceptKey "initially" then
        pure ((← expectOne ["deferred", "immediate"]) == "deferred")
      else pure false
    return some (isDeferred && isPlain)
  else return none

def computed (grammar : Grammar) : Parse ColumnRule := do
  let value ← bracketed (grammar.expression 1)
  match ← peek with
  | some (.name text none) =>
      if isLabel (.name text none) && !(["generated", "always"].contains text.toLower) then
        let _ ← next
        return .computed value (some text.toLower)
      else return .computed value none
  | _ => return .computed value none

def columnRule? (grammar : Grammar) : Parse (Option ColumnRule) := do
  if ← acceptKey "constraint" then
    let _ ← takeName
    return some .label
  else if ← acceptKey "default" then return some (.fallback (← fallback grammar))
  else if ← acceptKey "null" then
    let _ ← ruleResolution
    return some .nullable
  else if ← acceptKeys ["not", "null"] then return some (.notNull (← ruleResolution))
  else if ← acceptKeys ["primary", "key"] then
    let descends ← direction
    let resolution ← ruleResolution
    return some (.primary descends resolution (← acceptKey "autoincrement"))
  else if ← acceptKey "unique" then return some (.unique (← ruleResolution))
  else if ← acceptKey "check" then return some (.check (← bracketed (grammar.expression 1)))
  else if ← acceptKey "references" then return some (.reference (← reference))
  else if ← acceptKey "collate" then return some (.collation (← takeName))
  else if ← acceptKeys ["generated", "always", "as"] then return some (← computed grammar)
  else if ← acceptKey "as" then return some (← computed grammar)
  else
    match ← deferral? with
    | some isDeferred => return some (.deferral isDeferred)
    | none => return none

def column (grammar : Grammar) : Parse ColumnText := do
  let name ← takeName
  let type ← typeWords
  return { name, type, rules := ← many (columnRule? grammar) }

/-! ### Tables -/

/-- Takes a rule for several columns, if there is one. -/
def tableRule? (grammar : Grammar) : Parse (Option TableRule) := do
  if ← acceptKey "constraint" then
    let _ ← takeName
    return some .label
  else if ← acceptKeys ["primary", "key"] then
    expectSign "("
    let parts ← separated (orderTerm grammar)
    let isCounted ← acceptKey "autoincrement"
    expectSign ")"
    return some (.primary parts (← ruleResolution) isCounted)
  else if ← acceptKey "unique" then
    let parts ← bracketed (separated (orderTerm grammar))
    return some (.unique parts (← ruleResolution))
  else if ← acceptKey "check" then
    let condition ← bracketed (grammar.expression 1)
    let _ ← ruleResolution
    return some (.check condition)
  else if ← acceptKeys ["foreign", "key"] then
    let columns ← columnNames
    expectKeys ["references"]
    let reference ← reference
    return some (.reference columns reference ((← deferral?).getD false))
  else return none

def tableRules (grammar : Grammar) : Nat → Parse (List TableRule)
  | 0 => fail
  | fuel + 1 => do
      match ← tableRule? grammar with
      | none => fail
      | some rule =>
          let isFollowed ← acceptSign ","
          if (← peek) = some (.sign ")") then
            if isFollowed then fail else return [rule]
          else return rule :: (← tableRules grammar fuel)

/-- Takes columns, then rules, with fuel for their number. -/
def tableParts (grammar : Grammar) : Nat → List ColumnText →
    Parse (List ColumnText × List TableRule)
  | 0, _ => fail
  | fuel + 1, columns => do
      let columns := columns ++ [← column grammar]
      if ← acceptSign "," then
        match ← peek with
        | some (.name text none) =>
            if ["constraint", "primary", "unique", "check", "foreign"].contains text.toLower then
              return (columns, ← tableRules grammar ((← get).length + 1))
            else tableParts grammar fuel columns
        | _ => tableParts grammar fuel columns
      else return (columns, [])

/-- Takes an option behind the columns, and tells whether it is the one for rows
without numbers. -/
def tableOption : Parse Bool := do
  if ← acceptKey "without" then
    if (← takeName) = "rowid" then return true else fail
  else if (← takeName) = "strict" then return false
  else fail

def table (grammar : Grammar) (written : String) : Parse TableText := do
  expectSign "("
  let (columns, rules) ← tableParts grammar ((← get).length + 1) []
  expectSign ")"
  let options ←
    match ← peek with
    | none => pure []
    | some (.sign ";") => pure []
    | some _ => separated tableOption
  let isNumbered := !options.contains true
  return { name := written.toLower, written, columns, rules, isNumbered
           isStrict := options.contains false }

/-! ### Definitions -/

/-- Takes the name of what is made as it is written, in front of which there may be a
condition. -/
def madeWritten : Parse String := do
  let _ ← acceptKeys ["if", "not", "exists"]
  takeWritten

/-- Takes the name of what is made, whichever way it is written. -/
def madeName : Parse String := do return (← madeWritten).toLower

def index (grammar : Grammar) (isUnique : Bool) : Parse IndexText := do
  let name ← madeName
  expectKeys ["on"]
  let table ← takeName
  let parts ← bracketed (separated (orderTerm grammar))
  return { name, table, isUnique, parts, condition := ← behind "where" (grammar.expression 1) }

def view (grammar : Grammar) : Parse ViewText := do
  let name ← madeName
  let columns ← if (← peek) = some (.sign "(") then columnNames else pure []
  expectKeys ["as"]
  return { name, columns, query := ← grammar.query }

def triggerTime : Parse TriggerTime := do
  if ← acceptKey "before" then return .before
  else if ← acceptKey "after" then return .after
  else if ← acceptKeys ["instead", "of"] then return .instead
  else return .before

def triggerEvent : Parse TriggerEvent := do
  if ← acceptKey "delete" then return .delete
  else if ← acceptKey "insert" then return .insert
  else
    expectKeys ["update"]
    return .update ((← behind "of" (separated takeName)).getD [])

def triggerSteps (grammar : Grammar) : Nat → Parse (List Statement)
  | 0 => fail
  | fuel + 1 => do
      let step ← statement grammar
      expectSign ";"
      if ← acceptKey "end" then return [step] else return step :: (← triggerSteps grammar fuel)

def trigger (grammar : Grammar) : Parse TriggerText := do
  let name ← madeName
  let time ← triggerTime
  let event ← triggerEvent
  expectKeys ["on"]
  let (_, table) ← takeQualified
  let _ ← acceptKeys ["for", "each", "row"]
  let condition ← behind "when" (grammar.expression 1)
  expectKeys ["begin"]
  let steps ← triggerSteps grammar ((← get).length + 1)
  return { name, table, time, event, condition, steps }

/-- Takes the rest of the command that makes a table that is kept elsewhere. -/
def foreign : Parse Definition := do
  let name ← madeName
  expectKeys ["using"]
  let keeper ← takeName
  if (← peek) = some (.sign "(") then brackets
  return .foreign name keeper

def definition (grammar : Grammar) : Parse Definition := do
  expectKeys ["create"]
  if ← acceptKey "table" then return .table (← table grammar (← madeWritten))
  else if ← acceptKey "index" then return .index (← index grammar false)
  else if ← acceptKeys ["unique", "index"] then return .index (← index grammar true)
  else if ← acceptKey "view" then return .view (← view grammar)
  else if ← acceptKey "trigger" then return .trigger (← trigger grammar)
  else if ← acceptKeys ["virtual", "table"] then foreign
  else fail

def whole {α : Type} (reader : Grammar → Parse α) (text : String) : Option α :=
  let words := Word.words text
  match reader (ofDepth (words.length + 2)) words with
  | some (value, []) => some value
  | some (value, .sign ";" :: _) => some value
  | _ => none

end Grammar

def Definition.ofText? (text : String) : Option Definition := Grammar.whole Grammar.definition text

def Statement.ofText? (text : String) : Option Statement := Grammar.whole Grammar.statement text

end Query

end BlockStage

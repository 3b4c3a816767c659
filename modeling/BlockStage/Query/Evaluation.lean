import BlockStage.Query.Plan
import BlockStage.Query.Session

/-!
# Computing values

An expression is computed for the rows that are in sight, the nearest first.  Nothing
in, nothing out: most operators give nothing as soon as one of their operands is
nothing, and a condition that is nothing is not fulfilled.
-/

namespace BlockStage

namespace Query

open Pages (Value Encoding Volume Cursor)

/-- The rows of the sources of one query, and those that are gathered into one. -/
structure Sight where
  rows : List Row
  /-- The rows that functions gather, if they do. -/
  group : Option (List (List Row)) := none
  /-- The rows among which functions look around, and the place there, if they do. -/
  around : Option (List (List Row × Option (List (List Row))) × Nat) := none

/-- What an expression can look at. -/
structure Scene where
  /-- The rows in sight, the nearest first. -/
  sights : List Sight := []
  /-- The values that are given with the command. -/
  parameters : List Value := []
  /-- The row from which a query goes on. -/
  recent : List Value := []

namespace Scene

/-- The scene in which a query looks at some rows of its own. -/
def within (scene : Scene) (sight : Sight) : Scene :=
  { scene with sights := sight :: scene.sights }

def ofRow (row : Row) : Scene := { sights := [{ rows := [row] }] }

end Scene

/-- How values and rows are computed, down to some depth. -/
structure Engine where
  value : Scene → Expression → Work Value
  /-- The rows of a query, or the first of them. -/
  rows : Scene → Request → Option Nat → Work (List (List Value))

namespace Engine

/-! ### Operators -/

/-- Arithmetic on numbers, exact as long as the result fits. -/
def arithmetic (whole : Int → Int → Int) (real : Float → Float → Float) (first second : Value) :
    Value :=
  if first.isNull || second.isNull then .null
  else
    match first.toNumber, second.toNumber with
    | .whole first, .whole second =>
        let result := whole first second
        if Number.smallest ≤ result ∧ result ≤ Number.largest then .whole result
        else .ofFloat (real (Number.ofWhole first) (Number.ofWhole second))
    | first, second => .ofFloat (real first.toReal second.toReal)

def divide (first second : Value) : Value :=
  if first.isNull || second.isNull then .null
  else
    match first.toNumber, second.toNumber with
    | .whole first, .whole second =>
        if second = 0 then .null
        else if second = -1 ∧ first = Number.smallest then
          .ofFloat (Number.ofWhole first / Number.ofWhole second)
        else .whole (Int.tdiv first second)
    | first, second =>
        if second.toReal == 0 then .null else .ofFloat (first.toReal / second.toReal)

def remainder (first second : Value) : Value :=
  if first.isNull || second.isNull then .null
  else
    let dividend := first.toWhole
    let divisor := second.toWhole
    let isWhole := match first.toNumber, second.toNumber with
      | .whole _, .whole _ => true
      | _, _ => false
    if divisor = 0 then .null
    else
      let rest := if divisor = -1 then 0 else Int.tmod dividend divisor
      if isWhole then .whole rest else .ofFloat (Number.ofWhole rest)

def bitwise (operation : Nat → Nat → Nat) (first second : Value) : Value :=
  if first.isNull || second.isNull then .null
  else
    .whole (Pages.signed 8 (operation (Pages.unsigned 8 first.toWhole)
      (Pages.unsigned 8 second.toWhole)))

/-- Shifts the bits of a whole number to the left, or to the right if the distance is
negative. -/
def shift (value : Int) (distance : Int) : Int :=
  if 64 ≤ distance then 0
  else if 0 ≤ distance then
    Pages.signed 8 (((Pages.unsigned 8 value) <<< distance.toNat) % Pages.patterns 8)
  else if distance ≤ -64 then if value < 0 then -1 else 0
  else value >>> (-distance).toNat

def shifted (isLeft : Bool) (first second : Value) : Value :=
  if first.isNull || second.isNull then .null
  else
    let distance := second.toWhole
    .whole (shift first.toWhole (if isLeft then distance else -distance))

def concat (encoding : Encoding) (first second : Value) : Value :=
  match first, second with
  | .null, _ => .null
  | _, .null => .null
  | .blob first, .blob second => .blob (first ++ second)
  | first, second =>
      let bytes := fun value : Value =>
        match value with
        | .blob bytes => bytes
        | value => encoding.recode value.textBytes
      .text (encoding.uncode (bytes first ++ bytes second))

def collationNamed : Option String → Work Collation
  | none => pure .binary
  | some name => Work.take (Collation.ofName? name)

def collationFor (first second : Expression) : Work Collation :=
  collationNamed (first.sharedCollation? second)

/-- How two operands compare, unless one of them is nothing. -/
def compareOperands (first second : Expression) (firstValue secondValue : Value) :
    Work Ordering := do
  let affinity := Value.sharedAffinity first.affinity? second.affinity?
  let (left, right) := Value.forComparison affinity firstValue secondValue
  return Value.compare (← Work.encoding) (← collationFor first second) left right

def fulfils : Binary → Ordering → Bool
  | .equal, order => order == .eq
  | .unequal, order => order != .eq
  | .is, order => order == .eq
  | .isNot, order => order != .eq
  | .less, order => order == .lt
  | .atMost, order => order != .gt
  | .greater, order => order == .gt
  | .atLeast, order => order != .lt
  | _, _ => false

def operate (encoding : Encoding) (operator : Binary) (first second : Value) : Option Value :=
  match operator with
  | .add => some (arithmetic (· + ·) (· + ·) first second)
  | .subtract => some (arithmetic (· - ·) (· - ·) first second)
  | .multiply => some (arithmetic (· * ·) (· * ·) first second)
  | .divide => some (divide first second)
  | .remainder => some (remainder first second)
  | .concat => some (concat encoding first second)
  | .bitAnd => some (bitwise Nat.land first second)
  | .bitOr => some (bitwise Nat.lor first second)
  | .shiftLeft => some (shifted true first second)
  | .shiftRight => some (shifted false first second)
  | _ => none

def isTrue (value : Value) : Bool := value.truth? == some true

def truthValue : Option Bool → Value
  | none => .null
  | some truth => .ofBool truth

/-- A random number, and what the next one is made of. -/
def random (seed : Nat) : Int × Nat :=
  let next := (seed * 6364136223846793005 + 1442695040888963407) % Pages.patterns 8
  (Pages.signed 8 next, next)

variable (inner : Engine)

def binary (scene : Scene) (operator : Binary) (first second : Expression) : Work Value := do
  let encoding ← Work.encoding
  match operator with
  | .and =>
      match (← inner.value scene first).truth? with
      | some false => return .ofBool false
      | left =>
          match (← inner.value scene second).truth? with
          | some false => return .ofBool false
          | right => return if left.isNone || right.isNone then .null else .ofBool true
  | .or =>
      match (← inner.value scene first).truth? with
      | some true => return .ofBool true
      | left =>
          match (← inner.value scene second).truth? with
          | some true => return .ofBool true
          | right => return if left.isNone || right.isNone then .null else .ofBool false
  | operator =>
      let left ← inner.value scene first
      let right ← inner.value scene second
      if Binder.isComparison operator then
        if (left.isNull || right.isNull) && operator != .is && operator != .isNot then
          return .null
        else return .ofBool (fulfils operator (← compareOperands first second left right))
      else Work.take (operate encoding operator left right)

def column (scene : Scene) (place : Place) : Work Value :=
  match scene.sights[place.depth]? with
  | none => Work.fail
  | some sight =>
      match sight.rows[place.source]? with
      | some row => row place.column
      | none => if sight.group.isSome then pure .null else Work.fail

/-- The first of some expressions whose value is something. -/
def firstGiven (scene : Scene) : List Expression → Work Value
  | [] => pure .null
  | expression :: expressions => do
      let value ← inner.value scene expression
      if value.isNull then firstGiven scene expressions else return value

def unsteady (function : String) (arguments : List Value) : Work Value := do
  let session ← get
  let (number, seed) := random session.seed
  match function with
  | "changes" => return .whole session.changed
  | "total_changes" => return .whole session.total
  | "last_insert_rowid" => return .whole session.lastNumber
  | "random" =>
      set { session with seed }
      return .whole number
  | "randomblob" =>
      set { session with seed }
      let size := ((arguments.headD .null).toWhole.toNat) % 1000000000
      return .blob (Pages.zeros (max 1 size))
  | "sqlite_version" => return .ofText "3.46.0"
  | "sqlite_source_id" =>
      return .ofText ("2024-05-23 13:25:27 " ++
        "96c92aba00c8375bc32fafcdf12429c58bd8aabfcadab6683e35bbb9cdebf19e")
  | _ => Work.fail

/-- The functions whose results depend on how their arguments compare. -/
def comparing : List String := ["min", "max", "nullif"]

/-- The collation by which a function compares its arguments. -/
def collationOf (function : String) (arguments : List Expression) : Work Collation :=
  if comparing.contains function then
    collationNamed (arguments.findSome? Expression.collation?)
  else pure .binary

def call (scene : Scene) (function : String) (arguments : List Expression) : Work Value := do
  if function = "coalesce" ∨ function = "ifnull" then inner.firstGiven scene arguments
  else if function = "iif" then
    match arguments with
    | [condition, first, second] =>
        if isTrue (← inner.value scene condition) then inner.value scene first
        else inner.value scene second
    | _ => Work.fail
  else
    let values ← arguments.mapM (inner.value scene)
    if (Function.find? function arguments.length).any fun signature => !signature.isSteady then
      unsteady function values
    else
      let collation ← collationOf function arguments
      Work.take (Function.apply (← Work.encoding) collation function values)

/-! ### Functions of several rows -/

/-- The sum of real numbers with what was lost in adding them. -/
def addReal (sum : Float × Float) (value : Float) : Float × Float :=
  let total := sum.1 + value
  let lost :=
    if sum.1.abs > value.abs then (sum.1 - total) + value else (value - total) + sum.1
  (total, sum.2 + lost)

def realSum (values : List Value) : Float :=
  let (total, lost) := values.foldl (fun sum value => addReal sum value.toReal) (0, 0)
  if total.isNaN || total.isInf then total else total + lost

/-- The sum of values, a whole number if all of them are. -/
def sum (values : List Value) : Option Value :=
  let numbers := values.map fun value =>
    match value with
    | .text bytes => (Value.numeric? bytes).getD (.ofFloat value.toReal)
    | .blob _ => .ofFloat value.toReal
    | value => value
  let wholes := numbers.filterMap fun value =>
    match value with
    | .whole value => some value
    | _ => none
  if values.isEmpty then some .null
  else if wholes.length = numbers.length then
    let total := wholes.foldl (· + ·) 0
    if Number.smallest ≤ total ∧ total ≤ Number.largest then some (.whole total) else none
  else some (.ofFloat (realSum numbers))

def distinct (isSame : List Value → List Value → Bool) :
    List (List Value) → List (List Value) → List (List Value)
  | kept, [] => kept.reverse
  | kept, row :: rows =>
      if kept.any (isSame row) then distinct isSame kept rows else distinct isSame (row :: kept) rows

def isSameRow (encoding : Encoding) (collations : List Collation) (first second : List Value) :
    Bool :=
  (first.zip (second.zip (collations ++ List.replicate first.length .binary))).all
    fun (left, right, collation) => Value.compare encoding collation left right == .eq

def gather (encoding : Encoding) (collation : Collation) (function : String)
    (rows : List (List Value)) : Option Value :=
  let given := rows.filter fun row => !(row.headD .null).isNull
  let firsts := given.map fun row => row.headD .null
  match function with
  | "count" => some (.whole (rows.filter fun row => row.isEmpty || !(row.headD .null).isNull).length)
  | "sum" => sum firsts
  | "total" => some (.ofFloat (realSum firsts))
  | "avg" =>
      some (if firsts.isEmpty then .null
        else .ofFloat (realSum firsts / Number.ofWhole firsts.length))
  | "min" => some (if firsts.isEmpty then .null else Function.extreme encoding collation (· == .lt) firsts)
  | "max" => some (if firsts.isEmpty then .null else Function.extreme encoding collation (· == .gt) firsts)
  | "group_concat" => some (join given)
  | "string_agg" => some (join given)
  | _ => none
where
  /-- The texts one behind the other, each but the first behind what divides them. -/
  join (given : List (List Value)) : Value :=
    match given with
    | [] => .null
    | first :: rest =>
        .text (rest.foldl (fun bytes row =>
          bytes ++ ((row.drop 1).headD (.ofText ",")).textBytes ++ (row.headD .null).textBytes)
          (first.headD .null).textBytes)

/-- The order of two rows by the terms of an order, given the values of the terms. -/
def precedes (encoding : Encoding) : List OrderTerm → List Value → List Value → Bool
  | .term key descends nullsLast :: terms, first :: firsts, second :: seconds =>
      let collation := ((key.collation?).bind Collation.ofName?).getD .binary
      let order := Value.compare encoding collation first second
      let order := if descends then order.swap else order
      let order : Ordering := match nullsLast with
        | some isLast =>
            if first.isNull && !second.isNull then if isLast then .gt else .lt
            else if second.isNull && !first.isNull then if isLast then .lt else .gt
            else order
        | none => order
      match order with
      | .lt => true
      | .gt => false
      | .eq => precedes encoding terms firsts seconds
  | _, _, _ => true

def gathering (scene : Scene) (function : String) (arguments : List Expression)
    (manner : Manner) : Work Value := do
  match manner, scene.sights with
  | .manner isDistinct _ order condition _, { group := some group, .. } :: sights =>
      let encoding ← Work.encoding
      let kept ← group.filterM fun rows =>
        match condition with
        | none => pure true
        | some condition => do
            return isTrue (← inner.value { scene with sights := { rows } :: sights } condition)
      let entries ← kept.mapM fun rows => do
        let within := { scene with sights := { rows } :: sights }
        let values ← arguments.mapM (inner.value within)
        let keys ← order.mapM fun term => inner.value within term.key
        return (values, keys)
      let ordered :=
        if order.isEmpty then entries
        else entries.mergeSort fun first second => precedes encoding order first.2 second.2
      let collation ←
        if isDistinct then collationNamed (arguments.findSome? Expression.collation?)
        else collationOf function arguments
      let rows := ordered.map Prod.fst
      let rows := if isDistinct then distinct (isSameRow encoding [collation]) [] rows else rows
      Work.take (gather encoding collation function rows)
  | _, _ => Work.fail

/-! ### Functions of the rows around one -/

/-- The rows that agree with each other, in their order: their scenes, and how they
stand to each other. -/
structure Partition where
  scenes : List Scene
  neighbours : List Window.Neighbour
  place : Nat

/-- The number of the group of each row, given what the rows are ordered by. -/
def groupNumbers (isSame : List Value → List Value → Bool) : Nat → List (List Value) → List Nat
  | _, [] => []
  | number, [_] => [number]
  | number, first :: second :: rest =>
      number :: groupNumbers isSame (if isSame first second then number else number + 1)
        (second :: rest)

def partitionOf (scene : Scene) (partition : List Expression) (order : List OrderTerm) :
    Work Partition := do
  match scene.sights with
  | { around := some (all, place), .. } :: sights =>
      let encoding ← Work.encoding
      let entries ← all.zipIdx.mapM fun ((rows, group), position) => do
        let within := { scene with sights := { rows, group } :: sights }
        let marks ← partition.mapM (inner.value within)
        let keys ← order.mapM fun term => inner.value within term.key
        return (within, marks, keys, position)
      let collationsOf := fun expressions : List Expression =>
        expressions.map fun expression =>
          ((expression.collation?).bind Collation.ofName?).getD .binary
      let own := ((entries[place]?).map fun entry => entry.2.1).getD []
      let members := entries.filter fun entry =>
        isSameRow encoding (collationsOf partition) entry.2.1 own
      let sorted := members.mergeSort fun first second =>
        precedes encoding order first.2.2.1 second.2.2.1
      let keys := sorted.map fun entry => entry.2.2.1
      let numbers := groupNumbers (isSameRow encoding (collationsOf (order.map OrderTerm.key))) 0 keys
      return {
        scenes := sorted.map Prod.fst
        neighbours := (numbers.zip keys).map fun (group, keys) => ⟨group, keys.headD .null⟩
        place := (sorted.findIdx? fun entry => entry.2.2.2 == place).getD 0 }
  | _ => Work.fail

/-- The distance of an edge of a window, which has to be a number that is not
negative. -/
def limit (scene : Scene) (measure : Measure) : Edge → Work Window.Limit
  | .unboundedBefore => pure .open
  | .unboundedAfter => pure .open
  | .current => pure .current
  | .before distance => do return .distance (← far distance) true
  | .after distance => do return .distance (← far distance) false
where
  /-- The value of a distance. -/
  far (distance : Expression) : Work Value := do
    match (← inner.value { scene with sights := [] } distance).convert .numeric with
    | .whole size => if size < 0 then Work.fail else return .whole size
    | .real bits =>
        if measure != .values || Number.ofBits bits < 0 then Work.fail else return .real bits
    | _ => Work.fail

def reached (scene : Scene) (partition : Partition) (order : List OrderTerm)
    (reach : Option Reach) : Work (List Scene) := do
  let encoding ← Work.encoding
  let direction : Window.Direction := match order with
    | .term key descends _ :: _ =>
        { encoding, collation := ((key.collation?).bind Collation.ofName?).getD .binary, descends }
    | [] => { encoding, collation := .binary, descends := false }
  let places ← match reach with
    | none =>
        pure (Window.placesInReach direction .values .open .current .nothing partition.neighbours
          partition.place)
    | some (.reach measure start finish exclusion) => do
        let start ← inner.limit scene measure start
        let finish ← inner.limit scene measure finish
        pure (Window.placesInReach direction measure start finish exclusion partition.neighbours
          partition.place)
  return places.filterMap fun place => partition.scenes[place]?

def positive (value : Value) : Work Nat :=
  match value.convert .numeric with
  | .whole number => if 0 < number then pure number.toNat else Work.fail
  | _ => Work.fail

/-- The value of an expression for a row, if there is one. -/
def valueIn (expression : Expression) : Option Scene → Work Value
  | some scene => inner.value scene expression
  | none => pure .null

/-- The value that a row so far away has, or another one if there is no such row. -/
def neighbouring (scene : Scene) (partition : Partition) (isBehind : Bool)
    (arguments : List Expression) : Work Value := do
  match arguments with
  | [] => Work.fail
  | argument :: rest =>
      let distance ← match rest with
        | distance :: _ => do pure ((← inner.value scene distance).convert .numeric)
        | [] => pure (.whole 1)
      let found := match distance with
        | .whole distance =>
            let place := if isBehind then partition.place + distance else partition.place - distance
            if place < 0 then none else partition.scenes[place.toNat]?
        | _ => none
      match found, rest.drop 1 with
      | some other, _ => inner.value other argument
      | none, otherwise :: _ => inner.value scene otherwise
      | none, [] => return .null

/-- The functions that join texts.  Over a window, nothing is joined to nothing. -/
def joining : List String := ["group_concat", "string_agg"]

def windowed (scene : Scene) (function : String) (arguments : List Expression)
    (condition : Option Expression) (window : Window) : Work Value := do
  match window with
  | .named _ => Work.fail
  | .window _ terms order reach =>
      let partition ← inner.partitionOf scene terms order
      let place := partition.place
      let argument := arguments.headD .null
      match Window.ofPlace? function partition.neighbours place with
      | some value => return value
      | none =>
          if function = "ntile" then
            let parts ← positive (← inner.valueIn argument partition.scenes.head?)
            return .whole (Window.tile parts partition.scenes.length place)
          else if function = "lag" then inner.neighbouring scene partition false arguments
          else if function = "lead" then inner.neighbouring scene partition true arguments
          else
            let scenes ← inner.reached scene partition order reach
            if function = "first_value" then inner.valueIn argument scenes.head?
            else if function = "last_value" then inner.valueIn argument scenes.getLast?
            else if function = "nth_value" then
              let number ← positive (← inner.value scene ((arguments.drop 1).headD .null))
              inner.valueIn argument scenes[number - 1]?
            else
              let kept ← scenes.filterM fun scene =>
                match condition with
                | none => pure true
                | some condition => do return isTrue (← inner.value scene condition)
              let rows ← kept.mapM fun scene => arguments.mapM (inner.value scene)
              let collation ← collationOf function arguments
              let value ← Work.take (gather (← Work.encoding) collation function rows)
              return match value with
                | .text bytes =>
                    if joining.contains function && bytes.isEmpty then .null else value
                | value => value

/-! ### Expressions -/

/-- Whether a value is among others: so, not so, or unknown. -/
def membership (isSame : Value → Bool) (operand : Value) (items : List Value) : Value :=
  if items.isEmpty then .ofBool false
  else if operand.isNull then .null
  else if items.any fun item => !item.isNull && isSame item then .ofBool true
  else if items.any Value.isNull then .null
  else .ofBool false

def agreement (encoding : Encoding) : List (Affinity × Collation) → List Value → List Value →
    Option Bool
  | (affinity, collation) :: rules, first :: firsts, second :: seconds =>
      let rest := agreement encoding rules firsts seconds
      if first.isNull || second.isNull then if rest == some false then rest else none
      else if Value.compare encoding collation (first.convert affinity) (second.convert affinity)
          == .eq then rest
      else some false
  | _, _, _ => some true

/-- Whether the value of an expression is among those of others. -/
def member (scene : Scene) (operand : Expression) (items : List Expression) : Work Value := do
  let encoding ← Work.encoding
  let value ← inner.value scene operand
  let values ← items.mapM (inner.value scene)
  let affinity := operand.affinity?.getD .blob
  let collation ← collationFor operand .null
  let converted := fun value : Value => value.convert affinity
  return membership
    (fun item => Value.compare encoding collation (converted value) (converted item) == .eq)
    value values

/-- Whether the value of an expression, or several values together, are among the rows
of a query. -/
def memberOf (scene : Scene) (operand : Expression) (query : Request) : Work Value := do
  let encoding ← Work.encoding
  let operands := match operand with
    | .row items => items
    | operand => [operand]
  let values ← operands.mapM (inner.value scene)
  let rows ← inner.rows scene query none
  let rules ← operands.zipIdx.mapM fun (operand, position) => do
    let other := (columnIn position lookDepth query).getD .null
    return (Value.sharedAffinity operand.affinity? other.affinity?, ← collationFor operand other)
  let agreements := rows.map fun row => agreement encoding rules values row
  return if agreements.contains (some true) then .ofBool true
    else if agreements.contains none then .null
    else .ofBool false

def choose (scene : Scene) (base : Option (Expression × Value)) (otherwise : Option Expression) :
    List (Expression × Expression) → Work Value
  | [] =>
      match otherwise with
      | some expression => inner.value scene expression
      | none => pure .null
  | (condition, result) :: branches => do
      let value ← inner.value scene condition
      let isChosen ← match base with
        | none => pure (isTrue value)
        | some (expression, operand) =>
            if operand.isNull || value.isNull then pure false
            else do pure ((← compareOperands expression condition operand value) == .eq)
      if isChosen then inner.value scene result else choose scene base otherwise branches

/-- Computes an expression, whose parts are computed by an inner engine. -/
def valueWith (scene : Scene) : Expression → Work Value
  | .literal value => pure value
  | .moment kind => pure (Moment.present kind)
  | .parameter number => pure (scene.parameters.getD (number - 1) .null)
  | .name .. => Work.fail
  | .column place affinity _ => do
      match affinity, ← column scene place with
      | some .real, .whole value => return .ofFloat (Number.ofWhole value)
      | _, value => return value
  | .unary .minus operand => do
      return arithmetic (· - ·) (· - ·) (.whole 0) (← inner.value scene operand)
  | .unary .plus operand => inner.value scene operand
  | .unary .complement operand => do
      let value ← inner.value scene operand
      return if value.isNull then .null else .whole (-value.toWhole - 1)
  | .unary .not operand => do
      return truthValue ((← inner.value scene operand).truth?.map (!·))
  | .binary operator first second => inner.binary scene operator first second
  | .isNull operand => do return .ofBool (← inner.value scene operand).isNull
  | .isTrue operand => do return .ofBool (isTrue (← inner.value scene operand))
  | .collate operand _ => inner.value scene operand
  | .cast operand affinity => do
      return (← inner.value scene operand).cast (← Work.encoding) affinity
  | .call function arguments manner =>
      match manner with
      | .manner _ _ _ condition (some window) =>
          inner.windowed scene function arguments condition window
      | manner =>
          if (Function.find? function arguments.length).any Signature.gathers then
            inner.gathering scene function arguments manner
          else inner.call scene function arguments
  | .member operand items => inner.member scene operand items
  | .memberOf operand query => inner.memberOf scene operand query
  | .exist query => do return .ofBool !(← inner.rows scene query (some 1)).isEmpty
  | .scalar query position => do
      let rows ← inner.rows scene query (some 1)
      return (rows.headD []).getD position .null
  | .choice base branches otherwise => do
      match base with
      | none => inner.choose scene none otherwise branches
      | some expression =>
          let value ← inner.value scene expression
          inner.choose scene (some (expression, value)) otherwise branches
  | .row _ => Work.fail
  | .raise .ignore => Work.pass
  | .raise _ => Work.fail

end Engine

end Query

end BlockStage

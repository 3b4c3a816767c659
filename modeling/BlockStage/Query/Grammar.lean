import BlockStage.Query.Digits
import BlockStage.Query.Expression
import BlockStage.Query.Parse

/-!
# The grammar of expressions and queries

Operators bind more or less closely, on levels from one to twelve.  An expression
is read from a level on: it takes only operators of that level or a closer one.
Since expressions and queries contain each other, they are read by a grammar of
limited depth, each depth being built on the one below.
-/

namespace BlockStage

namespace Query

open Pages (Value bytesOf)
open Parse

/-- Readers of expressions, from a level on, and of queries. -/
structure Grammar where
  expression : Nat → Parse Expression
  query : Parse Request

namespace Grammar

/-! ### Literals -/

def bytesOfText (text : String) : ByteArray :=
  bytesOf (text.toList.map fun character => UInt8.ofNat character.toNat)

def hexValue (digit : Char) : Nat :=
  if digit.isDigit then digit.toNat - 48 else digit.toLower.toNat - 87

def digitsValue (base : Nat) (digits : List Char) : Nat :=
  digits.foldl (fun value digit => value * base + hexValue digit) 0

def hexBytes : List Char → List UInt8
  | first :: second :: rest =>
      UInt8.ofNat (hexValue first * 16 + hexValue second) :: hexBytes rest
  | _ => []

def digitsOf (characters : List Char) : List Nat :=
  (characters.filter Char.isDigit).map fun digit => digit.toNat - 48

/-- The largest power of ten that is told from larger ones. -/
def maxPower : Nat := 10000

def realOf (numeral : List Char) : Float :=
  let (mantissa, exponent) := numeral.span fun character => character.toLower != 'e'
  let (whole, fraction) := mantissa.span (· != '.')
  let isNegative := exponent.contains '-'
  let size := min maxPower (digitsValue 10 (exponent.filter Char.isDigit))
  Digits.toFloat (digitsOf whole) (digitsOf fraction) (if isNegative then -(size : Int) else size)

def wholeLimit : Nat := Pages.patterns 8 / 2

/-- The value of a numeral, with a sign in front or not.  Whole numbers that are
too large become real ones, and those in hexadecimal digits wrap around. -/
def numeral? (isNegative : Bool) (digits : String) : Option Value :=
  let characters := digits.toList
  if characters.take 2 = ['0', 'x'] then
    let digits := (characters.drop 2).dropWhile (· == '0')
    let value := Pages.signed 8 (digitsValue 16 digits)
    if digits.length > 16 then none else some (.whole (if isNegative then -value else value))
  else
    let value := digitsValue 10 characters
    if characters.all Char.isDigit && decide (value < wholeLimit + if isNegative then 1 else 0) then
      some (.whole (if isNegative then -(value : Int) else value))
    else
      let real := realOf characters
      some (.real (if isNegative then -real else real).toBits.toNat)

def signed : Parse Bool := do
  if ← acceptSign "-" then return true
  else
    let _ ← acceptSign "+"
    return false

def signedNumber : Parse Value := do
  let isNegative ← signed
  match ← next with
  | .number digits =>
      match numeral? isNegative digits with
      | some value => return value
      | none => fail
  | _ => fail

def moments : List String := ["current_date", "current_time", "current_timestamp"]

def literal? : Parse (Option Expression) := do
  match ← peek with
  | some (.number digits) =>
      let _ ← next
      match numeral? false digits with
      | some value => return some (.literal value)
      | none => fail
  | some (.blob digits) =>
      let _ ← next
      return some (.literal (.blob (bytesOf (hexBytes digits.toList))))
  | some (.text content) =>
      let _ ← next
      return some (.literal (.text (bytesOfText content)))
  | some (.name text none) =>
      if text.toLower = "null" then
        let _ ← next
        return some .null
      else if moments.contains text.toLower then
        let _ ← next
        return some (.moment text.toLower)
      else return none
  | _ => return none

/-! ### Types -/

def hasPart (part text : List Char) : Bool :=
  match text with
  | [] => part.isEmpty
  | _ :: rest => part.isPrefixOf text || hasPart part rest

/-- Takes the words of a type with the numbers behind them. -/
def typeWords : Parse String := do
  let names ← many (do
    match ← peek with
    | some word =>
        if isLabel word && !word.isKey "generated" then return some (← takeWritten)
        else return none
    | none => return none)
  if names.isEmpty then return ""
  else
    let name := String.intercalate " " names
    if ← acceptSign "(" then
      let numbers ← separated (do
        let isNegative ← signed
        match ← next with
        | .number digits => return (if isNegative then "-" else "") ++ digits
        | _ => fail)
      expectSign ")"
      if numbers.length > 2 then fail
      return name ++ "(" ++ String.intercalate "," numbers ++ ")"
    else return name

/-- The kind of values that columns of a type prefer.  The last of some parts of
the name counts, but whole numbers go before all else. -/
def affinityOf (type : String) : Affinity :=
  let text := type.toLower.toList
  let rec scan (text : List Char) (found : Affinity) : Affinity :=
    match text with
    | [] => found
    | character :: rest =>
        let starts := fun part : String => part.toList.isPrefixOf (character :: rest)
        if starts "char" || starts "clob" || starts "text" then scan rest .text
        else if starts "blob" && (found = .numeric || found = .real) then scan rest .blob
        else if (starts "real" || starts "floa" || starts "doub") && found = .numeric then
          scan rest .real
        else scan rest found
  if text.isEmpty then .blob
  else if hasPart "int".toList text then .integer
  else scan text .numeric

/-! ### Order -/

/-- Takes a direction, and tells whether it is downwards. -/
def direction : Parse Bool := do
  if ← acceptKey "desc" then return true
  else
    let _ ← acceptKey "asc"
    return false

def orderTerm (inner : Grammar) : Parse OrderTerm := do
  let key ← inner.expression 1
  let descends ← direction
  let nullsLast ← behind "nulls" (do return (← expectOne ["first", "last"]) == "last")
  return .term key descends nullsLast

/-! ### Operands -/

def edge (inner : Grammar) : Parse Edge := do
  if ← acceptKeys ["unbounded", "preceding"] then return .unboundedBefore
  else if ← acceptKeys ["unbounded", "following"] then return .unboundedAfter
  else if ← acceptKeys ["current", "row"] then return .current
  else
    let distance ← inner.expression 1
    if (← expectOne ["preceding", "following"]) == "preceding" then return .before distance
    else return .after distance

def mayReach : Edge → Edge → Bool
  | .unboundedAfter, _ => false
  | _, .unboundedBefore => false
  | .current, .before _ => false
  | .after _, .before _ => false
  | .after _, .current => false
  | _, _ => true

def exclusion : Parse Exclusion := do
  if ← acceptKey "exclude" then
    if ← acceptKeys ["no", "others"] then return .nothing
    else if ← acceptKeys ["current", "row"] then return .current
    else if (← expectOne ["group", "ties"]) == "group" then return .group
    else return .ties
  else return .nothing

def measures : List (String × Measure) := [("rows", .rows), ("range", .values), ("groups", .groups)]

def reach? (inner : Grammar) : Parse (Option Reach) := do
  let measure := match ← peek with
    | some (.name text none) => measures.lookup text.toLower
    | _ => none
  match measure with
  | none => return none
  | some measure =>
      let _ ← next
      let isPair ← acceptKey "between"
      let start ← edge inner
      let finish ← if isPair then do
          expectKeys ["and"]
          edge inner
        else pure .current
      let exclusion ← exclusion
      if mayReach start finish then return some (.reach measure start finish exclusion) else fail

def window (inner : Grammar) : Parse Window := do
  let startsHere := match ← peek with
    | some (.name text none) =>
        ["partition", "order", "rows", "range", "groups"].contains text.toLower
    | some (.sign ")") => true
    | _ => false
  let base ← if startsHere then pure none else some <$> takeName
  let partition ← behind "partition" (do
    expectKeys ["by"]
    separated (inner.expression 1))
  let order ← behind "order" (do
    expectKeys ["by"]
    separated (orderTerm inner))
  let reach ← reach? inner
  expectSign ")"
  return .window base (partition.getD []) (order.getD []) reach

/-- Takes what an aggregate is limited to, and the window over which it is called. -/
def scope (inner : Grammar) : Parse (Option Expression × Option Window) := do
  let words : List Word ← get
  let condition ←
    if (words[0]?).any (·.isKey "filter") && words[1]? == some (.sign "(") then
      let _ ← next
      let condition ← bracketed (do
        expectKeys ["where"]
        inner.expression 1)
      pure (some condition)
    else pure none
  let words : List Word ← get
  let isOver := (words[0]?).any (·.isKey "over") &&
    (words[1]? == some (.sign "(") || (words[1]?).any isName)
  if isOver then
    let _ ← next
    if ← acceptSign "(" then return (condition, some (← window inner))
    else return (condition, some (.named (← takeName)))
  else return (condition, none)

/-- Takes the arguments of a function behind the opening bracket. -/
def call (inner : Grammar) (function : String) : Parse Expression := do
  if ← acceptSign "*" then
    expectSign ")"
    let (condition, window) ← scope inner
    return .call function [] (.manner false true [] condition window)
  else
    let isDistinct ← acceptKey "distinct"
    let _ ← if isDistinct then pure false else acceptKey "all"
    let arguments ←
      if (← peek) = some (.sign ")") then pure [] else separated (inner.expression 1)
    let order ← (·.getD []) <$> behind "order" (do
      expectKeys ["by"]
      separated (orderTerm inner))
    expectSign ")"
    let (condition, window) ← scope inner
    return .call function arguments (.manner isDistinct false order condition window)

/-- Takes a name, which may be the one of a function or of a column. -/
def named (inner : Grammar) : Parse Expression := do
  let isLoose := match ← peek with
    | some (.name _ (some quote)) => quote == '\x22'
    | _ => false
  let written ← takeWritten
  let first := written.toLower
  if ← acceptSign "(" then call inner first
  else if ← acceptSign "." then
    let second ← takeName
    if ← acceptSign "." then return .name (some second) (← takeName) false
    else return .name (some first) second false
  else return .name none (if isLoose then written else first) isLoose

def choice (inner : Grammar) : Parse Expression := do
  expectKeys ["case"]
  let base ← if ← follow ["when"] then pure none else some <$> inner.expression 1
  let branches ← many (behind "when" (do
    let condition ← inner.expression 1
    expectKeys ["then"]
    return (condition, ← inner.expression 1)))
  let otherwise ← behind "else" (inner.expression 1)
  expectKeys ["end"]
  if branches.isEmpty then fail else return .choice base branches otherwise

/-- Takes what a trigger does to give up, behind the keyword. -/
def raised : Parse Expression :=
  bracketed (do
    let kind ← expectOne ["ignore", "rollback", "abort", "fail"]
    if kind = "ignore" then return .raise .ignore
    else
      expectSign ","
      let _ ← takeName
      return .raise (if kind = "rollback" then .rollback else if kind = "fail" then .fail else .abort))

def startsQuery : Parse Bool := do
  match ← peek with
  | some word => return word.isKey "select" || word.isKey "values" || word.isKey "with"
  | none => return false

/-- Takes what stands in brackets: a query, an expression or several. -/
def inBrackets (inner : Grammar) : Parse Expression :=
  bracketed (do
    if ← startsQuery then return .scalar (← inner.query) 0
    else
      match ← separated (inner.expression 1) with
      | [single] => return single
      | items => return .row items)

def parameterOf (text : String) : Expression :=
  .parameter (digitsValue 10 (text.toList.filter Char.isDigit))

def keyed (inner : Grammar) (text : String) : Parse Expression := do
  if text = "not" then
    let _ ← next
    return .unary .not (← inner.expression 3)
  else if text = "case" then choice inner
  else if text = "exists" then
    let _ ← next
    return .exist (← bracketed inner.query)
  else if text = "cast" then
    let _ ← next
    bracketed (do
      let operand ← inner.expression 1
      expectKeys ["as"]
      return .cast operand (affinityOf (← typeWords)))
  else if text = "raise" then
    let _ ← next
    raised
  else named inner

def operand (inner : Grammar) : Parse Expression := do
  if let some value ← literal? then
    if (← peek) = some (.sign ".") then
      match value with
      | .literal (.text _) => fail
      | _ => return value
    else return value
  else
    match ← peek with
    | some (.sign "-") =>
        let _ ← next
        match ← peek with
        | some (.number digits) =>
            let _ ← next
            match numeral? true digits with
            | some value => return .literal value
            | none => fail
        | _ => return .unary .minus (← inner.expression 12)
    | some (.sign "+") =>
        let _ ← next
        return .unary .plus (← inner.expression 12)
    | some (.sign "~") =>
        let _ ← next
        return .unary .complement (← inner.expression 12)
    | some (.sign "(") => inBrackets inner
    | some (.parameter text) =>
        let _ ← next
        return parameterOf text
    | some (.name text none) => keyed inner text.toLower
    | some (.name _ (some _)) => named inner
    | _ => fail

/-! ### Operators -/

/-- The operator of a sign between two operands, with its level. -/
def binary? : Word → Option (Binary × Nat)
  | .sign text =>
      ([("=", .equal, 4), ("==", .equal, 4), ("<>", .unequal, 4), ("!=", .unequal, 4),
        ("<", .less, 5), ("<=", .atMost, 5), (">", .greater, 5), (">=", .atLeast, 5),
        ("&", .bitAnd, 7), ("|", .bitOr, 7), ("<<", .shiftLeft, 7), (">>", .shiftRight, 7),
        ("+", .add, 8), ("-", .subtract, 8), ("*", .multiply, 9), ("/", .divide, 9),
        ("%", .remainder, 9), ("||", .concat, 10), ("->", .arrow, 10), ("->>", .longArrow, 10)] :
        List (String × Binary × Nat)).lookup text
  | .name text none =>
      if text.toLower = "or" then some (.or, 1)
      else if text.toLower = "and" then some (.and, 2)
      else none
  | _ => none

def matchers : List String := ["like", "glob", "regexp", "match"]

/-- Takes the rest of a comparison with nothing, with a truth, or with a value. -/
def identity (inner : Grammar) (first : Expression) : Parse Expression := do
  let isNegated ← acceptKey "not"
  let isDistinct ← acceptKeys ["distinct", "from"]
  let second ← inner.expression 5
  let isNegated := isNegated != isDistinct
  match second with
  | .literal .null => return .negated isNegated (.isNull first)
  | second => return .binary (if isNegated then .isNot else .is) first second

/-- Takes the list, the query or the table behind the keyword of membership. -/
def membership (inner : Grammar) (first : Expression) : Parse Expression := do
  if (← peek) = some (.sign "(") then
    bracketed (do
      if ← startsQuery then return .memberOf first (← inner.query)
      else if (← peek) = some (.sign ")") then return .whole 0
      else return .member first (← separated (inner.expression 1)))
  else
    let (schema, table) ← takeQualified
    let source : Source := .source (.table schema table) none {} none []
    return .memberOf first (.select false [.all none] [source] none [] none [])

/-- Takes an operator of the fourth level that is a keyword, and what follows it,
if there is one. -/
def keyOperator? (inner : Grammar) (first : Expression) : Parse (Option Expression) := do
  if ← acceptKey "isnull" then return some (.isNull first)
  else if ← acceptKey "notnull" then return some (.negated true (.isNull first))
  else if ← acceptKeys ["not", "null"] then return some (.negated true (.isNull first))
  else if ← acceptKey "is" then some <$> identity inner first
  else
    let words : List Word ← get
    let isNegated := (words[0]?).any (·.isKey "not")
    let position : Nat := if isNegated then 1 else 0
    let operator := match words[position]? with
      | some (.name text none) => text.toLower
      | _ => ""
    if matchers.contains operator || operator = "between" || operator = "in" then
      set (words.drop (if isNegated then 2 else 1))
      if operator = "in" then
        return some (.negated isNegated (← membership inner first))
      else if operator = "between" then
        let low ← inner.expression 3
        expectKeys ["and"]
        let high ← inner.expression 5
        return some (.negated isNegated
          (.binary .and (.binary .atLeast first low) (.binary .atMost first high)))
      else
        let pattern ← inner.expression 5
        let escape ← behind "escape" (inner.expression 7)
        return some (.negated isNegated (.apply operator ([pattern, first] ++ escape.toList)))
    else return none

/-- Takes operators from a level on with their operands, with fuel for their
number. -/
def operators (inner : Grammar) (least : Nat) : Nat → Expression → Parse Expression
  | 0, first => return first
  | fuel + 1, first => do
      match ← peek with
      | none => return first
      | some word =>
          match binary? word with
          | some (operator, level) =>
              if level < least then return first
              else
                let _ ← next
                let second ← inner.expression (level + 1)
                operators inner least fuel (.binary operator first second)
          | none =>
              if word.isKey "collate" && decide (least ≤ 11) then
                let _ ← next
                operators inner least fuel (.collate first (← takeName))
              else if least ≤ 4 then
                match ← keyOperator? inner first with
                | some second => operators inner least fuel second
                | none => return first
              else return first

def expressionWith (inner : Grammar) (least : Nat) : Parse Expression := do
  operators inner least ((← get).length + 1) (← operand inner)

/-! ### Sources -/

/-- Takes the keywords that join a source to those before it, if they are there. -/
def joinKeys : Parse (Option Join) := do
  if ← acceptSign "," then return some {}
  else
    let keys ← many (do
      match ← peek with
      | some (.name text none) =>
          if Word.joining.contains text.toLower then
            let _ ← next
            return some text.toLower
          else return none
      | _ => return none)
    if ← acceptKey "join" then
      let outer := keys.contains "left" || keys.contains "right" || keys.contains "full"
      let inward := keys.contains "inner" || keys.contains "cross"
      if keys.eraseDups.length != keys.length || keys.length > 3 || (outer && inward) ||
          (keys.contains "outer" && !outer) then fail
      else
        return some
          { isNatural := keys.contains "natural"
            keepsLeft := keys.contains "left" || keys.contains "full"
            keepsRight := keys.contains "right" || keys.contains "full" }
    else if keys.isEmpty then return none
    else fail

/-- Takes the condition or the columns by which a source is joined. -/
def joinRule (inner : Grammar) : Parse (Option Expression × List String) := do
  if ← acceptKey "on" then return (some (← inner.expression 1), [])
  else if ← acceptKey "using" then return (none, ← bracketed (separated takeName))
  else return (none, [])

/-- Takes the index that a source is to be read by, or the request for none. -/
def indexChoice : Parse Unit := do
  if ← acceptKeys ["indexed", "by"] then let _ ← takeName
  else let _ ← acceptKeys ["not", "indexed"]

def sourceWith (inner : Grammar) (nested : Parse (List Source)) (join : Join) : Parse Source := do
  let origin ←
    if ← acceptSign "(" then
      let origin ← if ← startsQuery then Origin.query <$> inner.query else Origin.group <$> nested
      expectSign ")"
      pure origin
    else
      let (schema, table) ← takeQualified
      if ← acceptSign "(" then
        let arguments ←
          if (← peek) = some (.sign ")") then pure [] else separated (inner.expression 1)
        expectSign ")"
        pure (Origin.call table arguments)
      else pure (Origin.table schema table)
  let label ← label
  indexChoice
  let (condition, shared) ← joinRule inner
  return .source origin label join condition shared

/-- Takes sources with fuel for their number and their depth. -/
def sources (inner : Grammar) : Nat → Join → Parse (List Source)
  | 0, _ => fail
  | fuel + 1, join => do
      let first ← sourceWith inner (sources inner fuel {}) join
      match ← joinKeys with
      | some join => return first :: (← sources inner fuel join)
      | none => return [first]

/-! ### Queries -/

def resultColumn (inner : Grammar) : Parse ResultColumn := do
  if ← acceptSign "*" then return .all none
  else
    match ← get with
    | first :: .sign "." :: .sign "*" :: rest =>
        if isName first then
          let source ← takeName
          set rest
          return .all (some source)
        else fail
    | _ =>
        let value ← inner.expression 1
        return .value value (← label)

def windows (inner : Grammar) : Parse (List (String × Window)) := do
  match ← get with
  | first :: second :: third :: _ =>
      if first.isKey "window" && isName second && third.isKey "as" then
        let _ ← next
        separated (do
          let name ← takeName
          expectKeys ["as"]
          expectSign "("
          return (name, ← window inner))
      else return []
  | _ => return []

def valueRows (inner : Grammar) : Parse Request := do
  let rows ← separated (bracketed (separated (inner.expression 1)))
  let size := (rows.head?.map List.length).getD 0
  if rows.all fun row => row.length == size then return .values rows else fail

def core (inner : Grammar) : Parse Request := do
  if ← acceptKey "values" then valueRows inner
  else
    expectKeys ["select"]
    let isDistinct ← acceptKey "distinct"
    let _ ← if isDistinct then pure false else acceptKey "all"
    let columns ← separated (resultColumn inner)
    let origins ← behind "from" (do sources inner ((← get).length + 1) {})
    let condition ← behind "where" (inner.expression 1)
    let groups ← behind "group" (do
      expectKeys ["by"]
      separated (inner.expression 1))
    let having ← behind "having" (inner.expression 1)
    return .select isDistinct columns (origins.getD []) condition (groups.getD []) having
      (← windows inner)

/-- Takes the keywords that put two queries together, if they are there. -/
def combination? : Parse (Option Combination) := do
  if ← acceptKey "union" then
    return some (if ← acceptKey "all" then .unionAll else .union)
  else if ← acceptKey "intersect" then return some .intersect
  else if ← acceptKey "except" then return some .except
  else return none

/-- Takes further queries that are put together with one, with fuel for their
number.  Gives the last of them too. -/
def combinations (inner : Grammar) : Nat → Request → Request → Parse (Request × Request)
  | 0, all, last => return (all, last)
  | fuel + 1, all, last => do
      match ← combination? with
      | none => return (all, last)
      | some combination =>
          let second ← core inner
          combinations inner fuel (.compound combination all second) second

def ordering (inner : Grammar) (query last : Request) : Parse Request := do
  let order ← behind "order" (do
    expectKeys ["by"]
    separated (orderTerm inner))
  let limits ← behind "limit" (do
    let first ← inner.expression 1
    if ← acceptKey "offset" then return (first, some (← inner.expression 1))
    else if ← acceptSign "," then return (← inner.expression 1, some first)
    else return (first, none))
  match last, order, limits with
  | _, none, none => return query
  | .values _, _, _ => fail
  | _, _, _ =>
      return .ordered query (order.getD []) (limits.map Prod.fst) (limits.bind Prod.snd)

def commonTable (inner : Grammar) : Parse CommonTable := do
  let name ← takeName
  let columns ←
    if (← peek) = some (.sign "(") then bracketed (separated takeName) else pure []
  expectKeys ["as"]
  if !(← acceptKeys ["not", "materialized"]) then let _ ← acceptKey "materialized"
  return .table name columns (← bracketed inner.query)

def queryWith (inner : Grammar) : Parse Request := do
  if ← acceptKey "with" then
    let _ ← acceptKey "recursive"
    let tables ← separated (commonTable inner)
    return .withTables tables (← inner.query)
  else
    let first ← core inner
    let (all, last) ← combinations inner ((← get).length + 1) first first
    ordering inner all last

def ofDepth : Nat → Grammar
  | 0 => ⟨fun _ => fail, fail⟩
  | depth + 1 =>
      let inner := ofDepth depth
      ⟨expressionWith inner, queryWith inner⟩

end Grammar

end Query

end BlockStage

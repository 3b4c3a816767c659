import BlockStage.Pages.Record

/-!
# Expressions and queries

An expression computes one value, a query computes rows of values; either may
contain the other.  Names stand for columns until they are bound: then a column is
known by its place among the rows that are in sight.
-/

namespace BlockStage

namespace Query

open Pages (Value)

/-- What is done about a row that breaks a rule. -/
inductive Resolution where
  | rollback
  | abort
  | fail
  | ignore
  | replace
deriving DecidableEq

/-- The kind of values that a column prefers. -/
inductive Affinity where
  | blob
  | text
  | numeric
  | integer
  | real
deriving DecidableEq

/-- The place of a column: how far out its row stands, which of the rows there it
is, and which column of it.  A row also has a number, which is no column. -/
structure Place where
  depth : Nat
  source : Nat
  column : Option Nat
deriving DecidableEq

/-- The operators in front of one operand. -/
inductive Unary where
  | minus
  | plus
  | complement
  | not
deriving DecidableEq

/-- The operators between two operands. -/
inductive Binary where
  | or
  | and
  | equal
  | unequal
  | is
  | isNot
  | less
  | atMost
  | greater
  | atLeast
  | bitAnd
  | bitOr
  | shiftLeft
  | shiftRight
  | add
  | subtract
  | multiply
  | divide
  | remainder
  | concat
  | arrow
  | longArrow
deriving DecidableEq

/-- How the rows of two queries are put together. -/
inductive Combination where
  | unionAll
  | union
  | intersect
  | except
deriving DecidableEq

/-- How the rows of a source are joined to those of the sources before it. -/
structure Join where
  isNatural : Bool := false
  /-- Whether rows before it stay without a partner. -/
  keepsLeft : Bool := false
  /-- Whether its own rows stay without a partner. -/
  keepsRight : Bool := false
deriving DecidableEq

/-- What the rows of a window are counted by. -/
inductive Measure where
  | rows
  /-- By the values that rows are ordered by. -/
  | values
  /-- By the groups of rows that come equal. -/
  | groups
deriving DecidableEq

/-- The rows that a window leaves out. -/
inductive Exclusion where
  | nothing
  | current
  /-- The row itself and those that come equal with it. -/
  | group
  /-- Those that come equal with the row. -/
  | ties
deriving DecidableEq

mutual

/-- An expression. -/
inductive Expression where
  | literal (value : Value)
  /-- The present time, date, or both. -/
  | moment (kind : String)
  /-- A value that is given with the command. -/
  | parameter (number : Nat)
  /-- A column by its name, and whether the name might be a text instead, in which
  case it stands as it was written. -/
  | name (table : Option String) (column : String) (isLoose : Bool)
  /-- A column by its place, with the affinity and the collation that it has. -/
  | column (place : Place) (affinity : Option Affinity) (collation : Option String)
  | unary (operator : Unary) (operand : Expression)
  | binary (operator : Binary) (first second : Expression)
  | isNull (operand : Expression)
  /-- Whether an operand counts as true. -/
  | isTrue (operand : Expression)
  | collate (operand : Expression) (collation : String)
  | cast (operand : Expression) (affinity : Affinity)
  | call (function : String) (arguments : List Expression) (manner : Manner)
  | member (operand : Expression) (items : List Expression)
  | memberOf (operand : Expression) (query : Request)
  | exist (query : Request)
  /-- The value of a column of the first row of a query. -/
  | scalar (query : Request) (position : Nat)
  | choice (base : Option Expression) (branches : List (Expression × Expression))
      (otherwise : Option Expression)
  /-- Several values that are compared together. -/
  | row (items : List Expression)
  /-- Gives up what is being done, from within a trigger. -/
  | raise (resolution : Resolution)

/-- How a function is called: with distinct arguments, with a star in place of
them, in an order, for some rows only, or over a window. -/
inductive Manner where
  | manner (isDistinct isStar : Bool) (order : List OrderTerm) (condition : Option Expression)
      (window : Option Window)

/-- The rows around a row that a function looks at. -/
inductive Window where
  /-- The window with a name. -/
  | named (name : String)
  /-- The rows that agree with the row in some expressions, in an order, and which of
  them are near enough.  What is not told may come from a window with a name. -/
  | window (base : Option String) (partition : List Expression) (order : List OrderTerm)
      (reach : Option Reach)

/-- How far a window reaches. -/
inductive Reach where
  | reach (measure : Measure) (start finish : Edge) (exclusion : Exclusion)

/-- An edge of a window. -/
inductive Edge where
  | unboundedBefore
  | before (distance : Expression)
  | current
  | after (distance : Expression)
  | unboundedAfter

/-- An expression by which rows are ordered. -/
inductive OrderTerm where
  | term (key : Expression) (descends : Bool) (nullsLast : Option Bool)

/-- A column of the rows that a query computes. -/
inductive ResultColumn where
  | value (expression : Expression) (label : Option String)
  /-- All columns of all sources, or of one. -/
  | all (source : Option String)

/-- Where rows come from. -/
inductive Origin where
  | table (schema : Option String) (name : String)
  | call (function : String) (arguments : List Expression)
  | query (query : Request)
  | group (sources : List Source)
  /-- The row from which a query goes on. -/
  | recent

/-- A source of rows with the name it is given and the way in which it is joined
to those before it. -/
inductive Source where
  | source (origin : Origin) (label : Option String) (join : Join)
      (condition : Option Expression) (shared : List String)

/-- A query under a name. -/
inductive CommonTable where
  | table (name : String) (columns : List String) (query : Request)

/-- A request for rows. -/
inductive Request where
  | select (isDistinct : Bool) (columns : List ResultColumn) (sources : List Source)
      (condition : Option Expression) (groups : List Expression) (having : Option Expression)
      (windows : List (String × Window))
  | values (rows : List (List Expression))
  | compound (combination : Combination) (first second : Request)
  | ordered (query : Request) (order : List OrderTerm) (limit offset : Option Expression)
  | withTables (tables : List CommonTable) (query : Request)
  /-- The rows of a first query, and those that others compute from each row in turn,
  repeated ones being kept or not. -/
  | recursive (keepsRepeats : Bool) (start : Request) (steps : List Request)
      (order : List OrderTerm) (limit offset : Option Expression)

end

def Manner.plain : Manner := .manner false false [] none none

def Manner.window? : Manner → Option Window
  | .manner _ _ _ _ window => window

def OrderTerm.key : OrderTerm → Expression
  | .term key _ _ => key

/-- The expression of a column, unless it stands for several columns. -/
def ResultColumn.expression? : ResultColumn → Option Expression
  | .value expression _ => some expression
  | .all _ => none

/-- The condition under which rows of a source are joined to others. -/
def Source.condition? : Source → Option Expression
  | .source _ _ _ condition _ => condition

def Source.query? : Source → Option Request
  | .source (.query query) _ _ _ _ => some query
  | _ => none

namespace Expression

def null : Expression := .literal .null

def whole (value : Int) : Expression := .literal (.whole value)

def negated (isNegated : Bool) (condition : Expression) : Expression :=
  if isNegated then .unary .not condition else condition

def apply (function : String) (arguments : List Expression) : Expression :=
  .call function arguments .plain

def all : List Expression → Option Expression
  | [] => none
  | condition :: conditions =>
      match all conditions with
      | none => some condition
      | some rest => some (.binary .and condition rest)

end Expression

end Query

end BlockStage

import BlockStage.Query.Affinity
import BlockStage.Query.Function

/-!
# Merging queries

A query over the rows of another one can often be computed in one go: the columns
of the inner query are put in place of those that the outer one takes from it, and
the rows have to fulfil both conditions.  So a condition on a view becomes one on the
table behind it.
-/

namespace BlockStage

namespace Query

mutual

/-- Replaces the columns in an expression.  The replacement is told in how many
queries of the expression a column stands; fuel bounds the depth. -/
def mapColumns (replace : Nat → Place → Expression → Expression) :
    Nat → Nat → Expression → Expression
  | 0, _, expression => expression
  | fuel + 1, depth, expression =>
      let inside := mapColumns replace fuel depth
      match expression with
      | .column place _ _ => replace depth place expression
      | .unary operator operand => .unary operator (inside operand)
      | .binary operator first second => .binary operator (inside first) (inside second)
      | .isNull operand => .isNull (inside operand)
      | .isTrue operand => .isTrue (inside operand)
      | .collate operand collation => .collate (inside operand) collation
      | .cast operand affinity => .cast (inside operand) affinity
      | .call function arguments (.manner isDistinct isStar order condition window) =>
          .call function (arguments.map inside)
            (.manner isDistinct isStar (order.map fun
              | .term key descends nullsLast => .term (inside key) descends nullsLast)
              (condition.map inside) (window.map fun
                | .window base partition order reach =>
                    .window base (partition.map inside) (order.map fun
                      | .term key descends nullsLast => .term (inside key) descends nullsLast)
                      reach
                | window => window))
      | .member operand items => .member (inside operand) (items.map inside)
      | .memberOf operand query =>
          .memberOf (inside operand) (mapQuery replace fuel (depth + 1) query)
      | .exist query => .exist (mapQuery replace fuel (depth + 1) query)
      | .scalar query position =>
          .scalar (mapQuery replace fuel (depth + 1) query) position
      | .choice base branches otherwise =>
          .choice (base.map inside)
            (branches.map fun (condition, value) => (inside condition, inside value))
            (otherwise.map inside)
      | .row items => .row (items.map inside)
      | expression => expression

def mapQuery (replace : Nat → Place → Expression → Expression) : Nat → Nat → Request → Request
  | 0, _, query => query
  | fuel + 1, depth, query =>
      let inside := mapColumns replace fuel depth
      match query with
      | .select isDistinct columns sources condition groups having windows =>
          .select isDistinct
            (columns.map fun
              | .value expression label => .value (inside expression) label
              | column => column)
            (sources.map fun
              | .source (.query nested) label join condition shared =>
                  .source (.query (mapQuery replace fuel depth nested)) label join
                    (condition.map inside) shared
              | .source origin label join condition shared =>
                  .source origin label join (condition.map inside) shared)
            (condition.map inside) (groups.map inside) (having.map inside) windows
      | .values rows => .values (rows.map fun row => row.map inside)
      | .compound combination first second =>
          .compound combination (mapQuery replace fuel depth first)
            (mapQuery replace fuel depth second)
      | .ordered nested order limit offset =>
          .ordered (mapQuery replace fuel depth nested)
            (order.map fun
              | .term key descends nullsLast => .term (inside key) descends nullsLast)
            limit offset
      | .withTables tables nested => .withTables tables (mapQuery replace fuel depth nested)
      | .recursive keepsRepeats start steps order limit offset =>
          .recursive keepsRepeats (mapQuery replace fuel depth start)
            (steps.map (mapQuery replace fuel depth)) order limit offset

end

def deeper (distance : Nat) (expression : Expression) : Expression :=
  mapColumns (fun depth place expression =>
    match expression with
    | .column _ affinity collation =>
        if depth ≤ place.depth then
          .column { place with depth := place.depth + distance } affinity collation
        else expression
    | expression => expression) lookDepth 0 expression

/-- An expression over the rows of a query as one over the sources of that query. -/
def throughColumns (columns : List Expression) (expression : Expression) : Expression :=
  mapColumns (fun depth place expression =>
    match place.column with
    | some position =>
        if place.depth = depth ∧ place.source = 0 then
          match columns[position]? with
          | some column => deeper depth column
          | none => expression
        else expression
    | none => expression) lookDepth 0 expression

/-- Whether an expression gathers values of several rows, with fuel for the depth. -/
def gathersIn : Nat → Expression → Bool
  | 0, _ => false
  | fuel + 1, expression =>
      (match expression with
        | .call function arguments manner =>
            manner.window?.isNone &&
              (Function.find? function arguments.length).any Signature.gathers
        | _ => false) || expression.parts.any (gathersIn fuel)

def gathers (expression : Expression) : Bool := gathersIn lookDepth expression

/-- The first window in an expression, with fuel for the depth. -/
def windowIn : Nat → Expression → Option Window
  | 0, _ => none
  | fuel + 1, expression =>
      match expression with
      | .call _ _ (.manner _ _ _ _ (some window)) => some window
      | expression => expression.parts.findSome? (windowIn fuel)

/-- A selection with the order in which its rows come. -/
structure Selection where
  isDistinct : Bool := false
  columns : List Expression
  sources : List Source := []
  condition : Option Expression := none
  groups : List Expression := []
  having : Option Expression := none
  order : List OrderTerm := []

namespace Selection

/-- The selection that a query is, without bounds on the number of rows. -/
def ofQuery? : Request → Option Selection
  | .select isDistinct columns sources condition groups having _ =>
      some { isDistinct, columns := columns.filterMap ResultColumn.expression?, sources, condition
             groups, having }
  | .ordered (.select isDistinct columns sources condition groups having _) order none none =>
      some { isDistinct, columns := columns.filterMap ResultColumn.expression?, sources, condition
             groups, having, order }
  | _ => none

def isGathered (selection : Selection) : Bool :=
  !selection.groups.isEmpty || selection.having.isSome || selection.columns.any gathers ||
    selection.order.any fun term => gathers term.key

def window? (selection : Selection) : Option Window :=
  (selection.columns ++ selection.order.map OrderTerm.key).findSome? (windowIn lookDepth)

/-- Whether the selection only picks rows and computes columns of each. -/
def isPlain (selection : Selection) : Bool :=
  !selection.isDistinct && !selection.isGathered && !selection.sources.isEmpty &&
    selection.window?.isNone

/-- The selection over the sources of its only source, if that is a plain selection. -/
def merged? (selection : Selection) : Option Selection :=
  match selection.sources with
  | [.source (.query query) _ _ none _] =>
      match ofQuery? query with
      | none => none
      | some inner =>
          if inner.isPlain then
            let through := throughColumns inner.columns
            some
              { isDistinct := selection.isDistinct
                columns := selection.columns.map through
                sources := inner.sources
                condition := Expression.all
                  (inner.condition.toList ++ (selection.condition.map through).toList)
                groups := selection.groups.map through
                having := selection.having.map through
                order :=
                  if selection.order.isEmpty && !selection.isGathered then inner.order
                  else selection.order.map fun
                    | .term key descends nullsLast => .term (through key) descends nullsLast }
          else none
  | _ => none

/-- The selection with as many queries merged as can be, with fuel for their number. -/
def mergedFrom : Nat → Selection → Selection
  | 0, selection => selection
  | fuel + 1, selection =>
      match selection.merged? with
      | some merged => mergedFrom fuel merged
      | none => selection

def merged (selection : Selection) : Selection := mergedFrom lookDepth selection

end Selection

end Query

end BlockStage

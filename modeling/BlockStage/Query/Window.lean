import BlockStage.Query.Comparison
import BlockStage.Query.Expression

/-!
# Windows

A function that is called over a window looks at rows around its own.  These are the
rows that agree with it in some expressions, in an order; rows that come equal in the
order form a group.  The window may reach from one edge to another, counted in rows, in
groups or by the value that orders the rows, and it may leave some rows out.
-/

namespace BlockStage

namespace Query

open Pages (Value Encoding)

namespace Window

/-! ### Windows with names -/

/-- A window with what it takes from one with a name, with fuel for windows that are
based on each other. -/
def resolve? (windows : List (String × Window)) : Nat → Window →
    Option (List Expression × List OrderTerm × Option Reach)
  | 0, _ => none
  | fuel + 1, .named name =>
      match windows.lookup name with
      | some found => resolve? windows fuel found
      | none => none
  | _ + 1, .window none partition order reach => some (partition, order, reach)
  | fuel + 1, .window (some base) partition order reach =>
      match windows.lookup base with
      | none => none
      | some found =>
          match resolve? windows fuel found with
          | some (basePartition, baseOrder, none) =>
              if !partition.isEmpty || (!baseOrder.isEmpty && !order.isEmpty) then none
              else some (basePartition, if baseOrder.isEmpty then order else baseOrder, reach)
          | _ => none

/-- Whether a window that reaches by values has the one order that it needs. -/
def isSound (order : List OrderTerm) : Option Reach → Bool
  | some (.reach .values start finish _) =>
      let hasDistance := fun edge : Edge =>
        match edge with
        | .before _ => true
        | .after _ => true
        | _ => false
      !(hasDistance start || hasDistance finish) || order.length == 1
  | _ => true

/-! ### Rows in reach -/

/-- A row among those that agree with each other, in their order: the number of its
group, and the value that orders it. -/
structure Neighbour where
  group : Nat
  value : Value

/-- An edge of a window whose distance is known.  An open edge is at the end of the
rows. -/
inductive Limit where
  | open
  | current
  | distance (value : Value) (isBefore : Bool)

/-- How values are ordered. -/
structure Direction where
  encoding : Encoding
  collation : Collation
  descends : Bool

def moved (value distance : Value) (isUp : Bool) : Value :=
  match value, distance with
  | .whole value, .whole distance =>
      let result := if isUp then value + distance else value - distance
      if Number.smallest ≤ result ∧ result ≤ Number.largest then .whole result
      else .ofFloat (Number.ofWhole result)
  | value, distance =>
      .ofFloat (if isUp then value.toReal + distance.toReal else value.toReal - distance.toReal)

def isNumber : Value → Bool
  | .whole _ => true
  | .real _ => true
  | _ => false

/-- How a row stands to an edge of the window of another row: in front of it, on it or
behind it. -/
def standing (direction : Direction) (measure : Measure) (own other : Neighbour)
    (ownPlace place : Nat) (limit : Limit) : Ordering :=
  let byGroup := compare other.group own.group
  match limit with
  | .open => .eq
  | .current => if measure = .rows then compare place ownPlace else byGroup
  | .distance distance isBefore =>
      let size := distance.toWhole.toNat
      let shifted := fun (first second : Nat) =>
        if isBefore then compare (first + size) second else compare first (second + size)
      match measure with
      | .rows => shifted place ownPlace
      | .groups => shifted other.group own.group
      | .values =>
          if isNumber own.value then
            let edge := moved own.value distance (isBefore == direction.descends)
            let order := Value.compare direction.encoding direction.collation other.value edge
            if direction.descends then order.swap else order
          else byGroup

/-- Whether a row is left out of the window of another row. -/
def isLeftOut (exclusion : Exclusion) (own other : Neighbour) (ownPlace place : Nat) : Bool :=
  match exclusion with
  | .nothing => false
  | .current => place == ownPlace
  | .group => other.group == own.group
  | .ties => other.group == own.group && place != ownPlace

/-- The places of the rows in the window of the row at a place. -/
def placesInReach (direction : Direction) (measure : Measure) (start finish : Limit)
    (exclusion : Exclusion) (rows : List Neighbour) (place : Nat) : List Nat :=
  match rows[place]? with
  | none => []
  | some own =>
      (rows.zipIdx.filter fun (other, position) =>
        standing direction measure own other place position start != .lt &&
          standing direction measure own other place position finish != .gt &&
          !isLeftOut exclusion own other place position).map Prod.snd

/-! ### Functions of the place -/

def tile (parts count place : Nat) : Nat :=
  let size := count / parts
  if size = 0 then place + 1
  else
    let large := count - parts * size
    let border := large * (size + 1)
    if place < border then 1 + place / (size + 1)
    else 1 + large + (place - border) / size

def fraction (numerator denominator : Nat) : Value :=
  .ofFloat (Number.ofWhole numerator / Number.ofWhole denominator)

/-- The value of a function that depends on nothing but the place of a row. -/
def ofPlace? (function : String) (rows : List Neighbour) (place : Nat) : Option Value := do
  let own ← rows[place]?
  let before := (rows.filter fun row => decide (row.group < own.group)).length
  let upTo := (rows.filter fun row => decide (row.group ≤ own.group)).length
  match function with
  | "row_number" => some (.whole (place + 1))
  | "rank" => some (.whole (before + 1))
  | "dense_rank" => some (.whole (own.group + 1))
  | "percent_rank" =>
      some (if rows.length ≤ 1 then .ofFloat 0 else fraction before (rows.length - 1))
  | "cume_dist" => some (fraction upTo rows.length)
  | _ => none

end Window

end Query

end BlockStage

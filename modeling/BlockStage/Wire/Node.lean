import BlockStage.Json.Reader
import BlockStage.Node.Statement

/-!
# Nodes as documents

A node is written as an object whose member `type` holds the keyword of its
kind; the other members hold its contents.  Reading also accepts the members in
any order, members that the kind does not know, and an array of the keyword and
the contents in their order.  The keyword is checked where it is met; the
contents are checked once the whole node has been read.
-/

namespace BlockStage

namespace Wire

def tagName : String := "type"

def only? (name : String) (members : List (String × Json)) : Option Json :=
  match members.filter fun member => member.1 == name with
  | [(_, value)] => some value
  | _ => none

def textMember? (name : String) (members : List (String × Json)) : Option String :=
  match only? name members with
  | some (.text content) => some content
  | _ => none

def realMember? (name : String) (members : List (String × Json)) : Option Float :=
  match only? name members with
  | some (.number numeral) => some numeral.toFloat
  | _ => none

/-- How nodes of one sort are told apart and built. -/
structure NodeShape (kind node : Type) where
  /-- The kind that a keyword names. -/
  kind? : String → Option kind
  /-- The names of the contents, in their order. -/
  contents : kind → List String
  /-- Builds a node from named contents. -/
  build? : kind → List (String × Json) → Option node

namespace NodeShape

variable {kind node : Type}

def ofItems? (shape : NodeShape kind node) (tag : kind) (items : List Json) : Option node :=
  let names := shape.contents tag
  if items.length = names.length then shape.build? tag (names.zip items) else none

def readTag (shape : NodeShape kind node) : Reader kind := do
  match shape.kind? (← Reader.text) with
  | some tag => return tag
  | none => Reader.fail .mismatched

/-- What has been read of a node that is written as an object. -/
structure Partial (kind : Type) where
  first : Bool
  tag : Option kind
  members : List (String × Json)

/-- Gives the finished node, or refuses contents that do not fit its kind. -/
def finish (built : Option node) : Reader node :=
  match built with
  | some result => return result
  | none => Reader.fail .mismatched

def readMembers (shape : NodeShape kind node) (room : Nat) : Reader node := do
  let (tag, members) ← Reader.loop (fun state : Partial kind => do
    match ← Reader.nextKey state.first with
    | some name =>
        if name = tagName then
          if state.tag.isSome then Reader.fail .mismatched
          else
            Reader.colon
            let tag ← shape.readTag
            return .inl { state with first := false, tag := some tag }
        else
          Reader.colon
          let value ← Reader.value room
          return .inl { state with first := false, members := (name, value) :: state.members }
    | none =>
        match state.tag with
        | some tag =>
            Reader.closeObject
            return .inr (tag, state.members.reverse)
        | none => Reader.fail .mismatched) ⟨true, none, []⟩
  finish (shape.build? tag members)

def readItems (shape : NodeShape kind node) (room : Nat) : Reader node := do
  if ← Reader.hasItem true then
    let tag ← shape.readTag
    let items ← Reader.loop (fun collected : List Json => do
      if ← Reader.hasItem false then
        let next ← Reader.value room
        return .inl (next :: collected)
      else
        Reader.closeArray
        return .inr collected.reverse) []
    finish (shape.ofItems? tag items)
  else
    Reader.fail .mismatched

/-- Reads a node, opening at most `room` containers inside each other. -/
def read (shape : NodeShape kind node) : Nat → Reader node
  | room + 1, .openObject :: rest => shape.readMembers room rest
  | room + 1, .openArray :: rest => shape.readItems room rest
  | 0, .openObject :: _ => .error .malformed
  | 0, .openArray :: _ => .error .malformed
  | _, token :: _ => .error (Reader.unwanted token)
  | _, [] => .error .premature

end NodeShape

end Wire

open Wire

namespace Expression

def toJson : Expression → Json
  | .constant value =>
      .object [(tagName, .text ExpressionKind.constant.keyword), ("value", .ofFloat value)]
  | .read name => .object [(tagName, .text ExpressionKind.read.keyword), ("name", .text name)]
  | .negate operand =>
      .object [(tagName, .text ExpressionKind.negate.keyword), ("expr", .text operand)]
  | .binary operator left right =>
      .object [(tagName, .text operator.keyword), ("lhs", .text left), ("rhs", .text right)]

def shape : NodeShape ExpressionKind Expression where
  kind? := ExpressionKind.ofKeyword?
  contents
    | .constant => ["value"]
    | .read => ["name"]
    | .negate => ["expr"]
    | .binary _ => ["lhs", "rhs"]
  build?
    | .constant, members => return .constant (← realMember? "value" members)
    | .read, members => return .read (← textMember? "name" members)
    | .negate, members => return .negate (← textMember? "expr" members)
    | .binary operator, members =>
        return .binary operator (← textMember? "lhs" members) (← textMember? "rhs" members)

def parse (source : String) : Except Fault Expression :=
  Reader.run (shape.read Reader.maxRoom) source

end Expression

namespace Statement

def toJson : Statement → Json
  | .assign name value =>
      .object [(tagName, .text StatementKind.assign.keyword), ("name", .text name),
        ("value", .text value)]
  | .branch condition thenBody elseBody =>
      .object [(tagName, .text StatementKind.branch.keyword), ("cond", .text condition),
        ("body1", .text thenBody), ("body2", .text elseBody)]
  | .loop condition body =>
      .object [(tagName, .text StatementKind.loop.keyword), ("cond", .text condition),
        ("body", .text body)]
  | .sleep duration =>
      .object [(tagName, .text StatementKind.sleep.keyword), ("value", .text duration)]

def shape : NodeShape StatementKind Statement where
  kind? := StatementKind.ofKeyword?
  contents
    | .assign => ["name", "value"]
    | .branch => ["cond", "body1", "body2"]
    | .loop => ["cond", "body"]
    | .sleep => ["value"]
  build?
    | .assign, members =>
        return .assign (← textMember? "name" members) (← textMember? "value" members)
    | .branch, members =>
        return .branch (← textMember? "cond" members) (← textMember? "body1" members)
          (← textMember? "body2" members)
    | .loop, members =>
        return .loop (← textMember? "cond" members) (← textMember? "body" members)
    | .sleep, members => return .sleep (← textMember? "value" members)

def parse (source : String) : Except Fault Statement :=
  Reader.run (shape.read Reader.maxRoom) source

end Statement

end BlockStage

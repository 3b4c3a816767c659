import BlockStage.Query.Expression

/-!
# Affinity and collation of expressions

What two operands are compared by depends on where they come from: a column brings
its affinity and its collation along, a cast its affinity, and a collation that is
asked for wins over that of a column.
-/

namespace BlockStage

namespace Query

def lookDepth : Nat := 200

/-- A column of the rows of a query, if its columns are single expressions, with fuel
for the depth.  Of queries that are put together the last one counts. -/
def columnIn (position : Nat) : Nat → Request → Option Expression
  | 0, _ => none
  | _ + 1, .select _ columns _ _ _ _ _ => (columns[position]?).bind ResultColumn.expression?
  | _ + 1, .values rows => ((rows.getLast?).getD [])[position]?
  | fuel + 1, .compound _ _ second => columnIn position fuel second
  | fuel + 1, .ordered query _ _ _ => columnIn position fuel query
  | fuel + 1, .withTables _ query => columnIn position fuel query
  | fuel + 1, .recursive _ start _ _ _ _ => columnIn position fuel start

/-- Kinds of values, as far as they matter to the affinity of a column. -/
structure Kinds where
  hasNumbers : Bool := false
  hasTexts : Bool := false

def Kinds.union (first second : Kinds) : Kinds :=
  ⟨first.hasNumbers || second.hasNumbers, first.hasTexts || second.hasTexts⟩

def Window.expressions : Window → List Expression
  | .named _ => []
  | .window _ partition order reach =>
      let distance := fun edge : Edge =>
        match edge with
        | .before distance => [distance]
        | .after distance => [distance]
        | _ => []
      let distances := match reach with
        | some (.reach _ start finish _) => distance start ++ distance finish
        | none => []
      partition ++ order.map OrderTerm.key ++ distances

namespace Expression

/-- The affinity of an expression, if it has one, with fuel for the depth. -/
def affinityIn : Nat → Expression → Option Affinity
  | 0, _ => none
  | _ + 1, .column _ affinity _ => affinity
  | _ + 1, .cast _ affinity => some affinity
  | fuel + 1, .collate operand _ => affinityIn fuel operand
  | fuel + 1, .row (item :: _) => affinityIn fuel item
  | fuel + 1, .scalar query position =>
      match columnIn position lookDepth query with
      | some expression => affinityIn fuel expression
      | none => none
  | _ + 1, _ => none

def affinity? (expression : Expression) : Option Affinity := affinityIn lookDepth expression

/-- The kinds of values that an expression may have, with fuel for the depth. -/
def kindsIn : Nat → Expression → Kinds
  | 0, _ => {}
  | fuel + 1, .collate operand _ => kindsIn fuel operand
  | fuel + 1, .unary .plus operand => kindsIn fuel operand
  | _ + 1, .literal (.text _) => { hasTexts := true }
  | _ + 1, .literal (.blob _) => {}
  | _ + 1, .literal .null => {}
  | _ + 1, .binary .concat _ _ => { hasTexts := true }
  | _ + 1, .parameter _ => { hasNumbers := true, hasTexts := true }
  | _ + 1, .call .. => { hasNumbers := true, hasTexts := true }
  | _ + 1, .moment _ => { hasNumbers := true, hasTexts := true }
  | fuel + 1, .choice _ branches otherwise =>
      (branches.map Prod.snd ++ otherwise.toList).foldl
        (fun kinds expression => kinds.union (kindsIn fuel expression)) {}
  | _ + 1, .column place affinity collation => ofAffinity (affinity? (.column place affinity collation))
  | _ + 1, .cast operand affinity => ofAffinity (affinity? (.cast operand affinity))
  | _ + 1, .scalar query position => ofAffinity (affinity? (.scalar query position))
  | _ + 1, _ => { hasNumbers := true }
where
  /-- The kinds of values under an affinity. -/
  ofAffinity : Option Affinity → Kinds
    | some .text => { hasTexts := true }
    | some .blob => { hasNumbers := true, hasTexts := true }
    | none => { hasNumbers := true, hasTexts := true }
    | some _ => { hasNumbers := true }

def kinds (expression : Expression) : Kinds := kindsIn lookDepth expression

/-- The expressions of which an expression is made, apart from those in queries. -/
def parts : Expression → List Expression
  | .unary _ operand => [operand]
  | .binary _ first second => [first, second]
  | .isNull operand => [operand]
  | .isTrue operand => [operand]
  | .collate operand _ => [operand]
  | .cast operand _ => [operand]
  | .call _ arguments _ => arguments
  | .member operand items => operand :: items
  | .memberOf operand _ => [operand]
  | .choice base branches otherwise =>
      base.toList ++ branches.flatMap (fun (condition, value) => [condition, value]) ++
        otherwise.toList
  | .row items => items
  | _ => []

/-- Whether a collation is asked for somewhere in an expression, with fuel for the
depth. -/
def collatesIn : Nat → Expression → Bool
  | 0, _ => false
  | _ + 1, .collate .. => true
  | fuel + 1, expression => expression.parts.any (collatesIn fuel)

/-- Whether a collation is asked for somewhere in an expression. -/
def collates (expression : Expression) : Bool := collatesIn lookDepth expression

/-- The collation of an expression, if it has one, with fuel for the depth. -/
def collationIn : Nat → Expression → Option String
  | 0, _ => none
  | _ + 1, .column _ _ collation => collation
  | _ + 1, .collate _ wanted => some wanted
  | fuel + 1, .cast operand _ => collationIn fuel operand
  | fuel + 1, .unary .plus operand => collationIn fuel operand
  | fuel + 1, .row (item :: _) => collationIn fuel item
  | fuel + 1, expression =>
      match expression.parts.find? collates with
      | some operand => collationIn fuel operand
      | none => none

def collation? (expression : Expression) : Option String := collationIn lookDepth expression

/-- The collation by which two operands are compared, if they have one. -/
def sharedCollation? (first second : Expression) : Option String :=
  if first.collates then first.collation?
  else if second.collates then second.collation?
  else first.collation? <|> second.collation?

end Expression

end Query

end BlockStage

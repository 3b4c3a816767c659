import BlockStage.Wire.Node
import BlockStage.Proofs.ReaderLaws

/-!
# The contents of nodes

The document of a node holds its keyword and its named contents, which are all texts and numbers.
A node is read member by member, wherever its keyword stands, and is built from the members that
have the names of its contents.  So it is read back whatever the order of its members is, and
whatever members with other names stand between them.
-/

namespace BlockStage

open Reader (Reads Walks rowTokens memberRow separator)

/-! ### Reading members -/

namespace Wire.NodeShape

variable {kind node : Type}

/-- The members of a node are a keyword, at any place, and plain members. -/
inductive Gathers (shape : NodeShape kind node) (room : Nat) :
    Option kind → List (String × Json) → kind → List (String × Json) → Prop where
  | nil {tag : kind} : Gathers shape room (some tag) [] tag []
  | keyword {word : String} {tag last : kind} {rest plain : List (String × Json)}
      (names : shape.kind? word = some tag) (later : Gathers shape room (some tag) rest last plain) :
      Gathers shape room none ((tagName, .text word) :: rest) last plain
  | plain {name : String} {value : Json} {tag : Option kind} {last : kind}
      {rest plain : List (String × Json)} (other : name ≠ tagName) (fits : value.Fits room)
      (later : Gathers shape room tag rest last plain) :
      Gathers shape room tag ((name, value) :: rest) last ((name, value) :: plain)

/-- One turn of reading the members of a node. -/
def memberStep (shape : NodeShape kind node) (room : Nat) (state : Partial kind) :
    Reader (Partial kind ⊕ (kind × List (String × Json))) := do
  match ← Reader.nextKey state.first with
  | some name =>
      if name = tagName then
        if state.tag.isSome then Reader.fail .mismatched
        else
          Reader.colon
          let tag ← shape.readTag
          return .inl { state with first := false, tag := some tag }
      else
        Reader.colon
        let value ← Reader.value room
        return .inl { state with first := false, members := (name, value) :: state.members }
  | none =>
      match state.tag with
      | some tag =>
          Reader.closeObject
          return .inr (tag, state.members.reverse)
      | none => Reader.fail .mismatched

theorem readMembers_eq (shape : NodeShape kind node) (room : Nat) :
    shape.readMembers room = (do
      let (tag, members) ← Reader.loop (shape.memberStep room) ⟨true, none, []⟩
      finish (shape.build? tag members)) := rfl

theorem reads_readTag {shape : NodeShape kind node} {word : String} {tag : kind}
    (names : shape.kind? word = some tag) :
    Reads shape.readTag [.text (.ok word)] tag := by
  intro rest
  rw [readTag, Reader.bind_of_ok (Reader.reads_text word rest)]
  simp only [names]
  rfl

theorem reads_keywordStep {shape : NodeShape kind node} {word : String} {tag : kind}
    (names : shape.kind? word = some tag) (room : Nat) (first : Bool)
    (collected : List (String × Json)) :
    Reads (shape.memberStep room ⟨first, none, collected⟩)
      (separator first ++ memberRow tagName [.text (.ok word)])
      (.inl ⟨false, some tag, collected⟩) := by
  have entry : Reads (do return Sum.inl ⟨false, some (← shape.readTag), collected⟩)
      [.text (.ok word)]
      (Sum.inl ⟨false, some tag, collected⟩ : Partial kind ⊕ (kind × List (String × Json))) :=
    (reads_readTag names).andReturn
  refine entry.behind_key first ?_
  simp

theorem reads_plainStep {shape : NodeShape kind node} {room : Nat} {name : String} {value : Json}
    (other : name ≠ tagName) (fits : value.Fits room) (first : Bool) (tag : Option kind)
    (collected : List (String × Json)) :
    Reads (shape.memberStep room ⟨first, tag, collected⟩)
      (separator first ++ memberRow name value.tokens)
      (.inl ⟨false, tag, (name, value) :: collected⟩) := by
  have entry : Reads (do return Sum.inl ⟨false, tag, (name, ← Reader.value room) :: collected⟩)
      value.tokens (Sum.inl ⟨false, tag, (name, value) :: collected⟩ :
        Partial kind ⊕ (kind × List (String × Json))) :=
    (Json.reads_value value room fits).andReturn
  refine entry.behind_key first ?_
  simp [other]

theorem walks_members {shape : NodeShape kind node} {room : Nat} {tag : Option kind}
    {members plain : List (String × Json)} {last : kind}
    (gathers : Gathers shape room tag members last plain) (first : Bool)
    (collected : List (String × Json)) (rest : List Token) :
    Walks (shape.memberStep room) ⟨first, tag, collected⟩
      (rowTokens .closeObject first
        (members.map fun member => memberRow member.1 member.2.tokens) ++ rest)
      (last, collected.reverse ++ plain) rest := by
  induction gathers generalizing first collected with
  | nil =>
      refine .done ?_
      simp only [List.map_nil, List.append_nil]
      rfl
  | keyword names later ih =>
      rw [List.map_cons, Reader.rowTokens_cons, List.append_assoc]
      exact (ih false collected).behind (reads_keywordStep names room first collected)
        (Reader.memberRow_ne_nil _ _ _)
  | @plain name value tag last members plain other fits later ih =>
      have tail := ih false ((name, value) :: collected)
      rw [List.reverse_cons, List.append_assoc] at tail
      rw [List.map_cons, Reader.rowTokens_cons, List.append_assoc]
      exact tail.behind (reads_plainStep other fits first tag collected)
        (Reader.memberRow_ne_nil _ _ _)

/-- A node is read from the members that make it up. -/
theorem reads_node {shape : NodeShape kind node} {room : Nat} {tag : kind} {result : node}
    {members plain : List (String × Json)} (gathers : Gathers shape room none members tag plain)
    (built : shape.build? tag plain = some result) :
    Reads (shape.read (room + 1)) (Json.object members).tokens result := by
  intro rest
  have read := Reader.loop_of_walks (walks_members gathers true [] rest)
  rw [Json.tokens, Json.memberTokens_eq, List.cons_append, NodeShape.read, readMembers_eq,
    Reader.bind_of_ok read]
  simp only [List.reverse_nil, List.nil_append, built]
  rfl

end Wire.NodeShape

/-! ### Members by their names -/

open Wire (tagName only? textMember? realMember?)

/-- A document that holds no others. -/
def Json.IsScalar : Json → Prop
  | .text _ => True
  | .number _ => True
  | _ => False

theorem Json.IsScalar.fits {document : Json} (scalar : document.IsScalar) (room : Nat) :
    document.Fits room := by
  cases document with
  | text content => trivial
  | number value => trivial
  | null => cases scalar
  | bool value => cases scalar
  | array items => cases scalar
  | object members => cases scalar

namespace Wire

variable {members others : List (String × Json)} {name : String}

/-- The order of members does not matter for the only one of a name. -/
theorem only?_of_perm (perm : members.Perm others) : only? name members = only? name others := by
  have filtered := perm.filter fun member => member.1 == name
  unfold only?
  generalize members.filter (fun member => member.1 == name) = first at *
  generalize others.filter (fun member => member.1 == name) = second at *
  have lengths := filtered.length_eq
  rcases first with _ | ⟨member, _ | ⟨next, more⟩⟩ <;>
    rcases second with _ | ⟨other, _ | ⟨next', more'⟩⟩ <;>
    simp only [List.length_cons, List.length_nil] at lengths
  · rfl
  · omega
  · omega
  · omega
  · rw [List.singleton_perm_singleton.mp filtered]
  · omega
  · omega
  · omega
  · rfl

theorem only?_append_of_unnamed (unnamed : ∀ member ∈ others, member.1 ≠ name) :
    only? name (members ++ others) = only? name members := by
  have none : others.filter (fun member => member.1 == name) = [] := by
    simpa [List.filter_eq_nil_iff] using unnamed
  simp only [only?, List.filter_append, none, List.append_nil]

theorem textMember?_congr (same : only? name members = only? name others) :
    textMember? name members = textMember? name others := by
  simp only [textMember?, same]

theorem realMember?_congr (same : only? name members = only? name others) :
    realMember? name members = realMember? name others := by
  simp only [realMember?, same]

end Wire

namespace Wire.NodeShape

variable {kind node : Type} {shape : NodeShape kind node} {room : Nat} {tag : kind}
  {word : String}

theorem gathers_of_untagged {members : List (String × Json)}
    (untagged : ∀ member ∈ members, member.1 ≠ tagName)
    (fits : ∀ member ∈ members, member.2.Fits room) :
    Gathers shape room (some tag) members tag members := by
  induction members with
  | nil => exact .nil
  | cons member rest ih =>
      obtain ⟨other, othersUntagged⟩ := List.forall_mem_cons.mp untagged
      obtain ⟨memberFits, othersFit⟩ := List.forall_mem_cons.mp fits
      exact .plain other memberFits (ih othersUntagged othersFit)

/-- The keyword of a node may stand anywhere among its members. -/
theorem gathers_of_tagged {before after : List (String × Json)}
    (names : shape.kind? word = some tag)
    (untagged : ∀ member ∈ before ++ after, member.1 ≠ tagName)
    (fits : ∀ member ∈ before ++ after, member.2.Fits room) :
    Gathers shape room none (before ++ (tagName, .text word) :: after) tag (before ++ after) := by
  induction before with
  | nil => exact .keyword names (gathers_of_untagged untagged fits)
  | cons member before ih =>
      obtain ⟨other, othersUntagged⟩ := List.forall_mem_cons.mp untagged
      obtain ⟨memberFits, othersFit⟩ := List.forall_mem_cons.mp fits
      exact .plain other memberFits (ih othersUntagged othersFit)

/-- Nodes are built from the members that have the names of their contents, whatever else there
is, and the keyword is none of them. -/
structure IsNamed (shape : NodeShape kind node) : Prop where
  untagged : ∀ tag, tagName ∉ shape.contents tag
  congr : ∀ (tag : kind) (members others : List (String × Json)),
    (∀ name ∈ shape.contents tag, only? name members = only? name others) →
      shape.build? tag members = shape.build? tag others

/-- A node is written as its keyword and contents. -/
structure Writes (shape : NodeShape kind node) (tag : kind) (word : String)
    (contents : List (String × Json)) (result : node) : Prop where
  names : shape.kind? word = some tag
  keys : contents.map Prod.fst = shape.contents tag
  scalars : ∀ content ∈ contents, content.2.IsScalar
  built : shape.build? tag contents = some result

theorem Writes.untagged {contents : List (String × Json)} {result : node}
    (writes : shape.Writes tag word contents result) (named : shape.IsNamed) :
    ∀ member ∈ contents, member.1 ≠ tagName := by
  intro member isMember
  have isName := List.mem_map_of_mem (f := Prod.fst) isMember
  rw [writes.keys] at isName
  exact ne_of_mem_of_not_mem isName (named.untagged tag)

/-- A node is read from its keyword and contents in any order, with other members among them. -/
theorem Writes.reads {contents members extra : List (String × Json)} {result : node}
    (writes : shape.Writes tag word contents result) (named : shape.IsNamed)
    (perm : members.Perm ((tagName, .text word) :: (contents ++ extra)))
    (unknown : ∀ member ∈ extra, member.1 ∉ tagName :: shape.contents tag)
    (fits : ∀ member ∈ extra, member.2.Fits room) :
    Reads (shape.read (room + 1)) (Json.object members).tokens result := by
  obtain ⟨before, after, rfl⟩ := List.append_of_mem (perm.mem_iff.mpr List.mem_cons_self)
  have rest : (before ++ after).Perm (contents ++ extra) :=
    (List.perm_middle.symm.trans perm).cons_inv
  have untagged : ∀ member ∈ contents ++ extra, member.1 ≠ tagName :=
    List.forall_mem_append.mpr ⟨writes.untagged named, fun member isMember =>
      List.ne_of_not_mem_cons (unknown member isMember)⟩
  have allFit : ∀ member ∈ contents ++ extra, member.2.Fits room :=
    List.forall_mem_append.mpr ⟨fun member isMember => (writes.scalars member isMember).fits room,
      fits⟩
  have gathers : Gathers shape room none (before ++ (tagName, .text word) :: after) tag
      (before ++ after) :=
    gathers_of_tagged writes.names (fun member isMember => untagged member (rest.subset isMember))
      fun member isMember => allFit member (rest.subset isMember)
  refine reads_node gathers ?_
  rw [← writes.built]
  refine named.congr tag _ _ fun name isName => ?_
  calc
    only? name (before ++ after) = only? name (contents ++ extra) := only?_of_perm rest
    _ = only? name contents := by
      refine only?_append_of_unnamed fun member isMember same => ?_
      rw [← same] at isName
      exact unknown member isMember (List.mem_cons_of_mem _ isName)

theorem Writes.reads_object {contents : List (String × Json)} {result : node}
    (writes : shape.Writes tag word contents result) (named : shape.IsNamed) :
    Reads (shape.read (room + 1)) (Json.object ((tagName, .text word) :: contents)).tokens
      result := by
  have perm : ((tagName, Json.text word) :: contents).Perm
      ((tagName, .text word) :: (contents ++ [])) := by
    rw [List.append_nil]
  exact writes.reads named perm (by simp) (by simp)

end Wire.NodeShape

/-! ### Expressions and statements -/

theorem ExpressionKind.ofKeyword?_keyword (kind : ExpressionKind) :
    ofKeyword? kind.keyword = some kind := by
  have each : ∀ kind ∈ all, ofKeyword? kind.keyword = some kind := by decide +kernel
  exact each kind (mem_all kind)

theorem StatementKind.ofKeyword?_keyword (kind : StatementKind) :
    ofKeyword? kind.keyword = some kind := by
  have each : ∀ kind ∈ all, ofKeyword? kind.keyword = some kind := by decide +kernel
  exact each kind (mem_all kind)

namespace Expression

/-- The contents of an expression in its document. -/
def contents : Expression → List (String × Json)
  | .constant value => [("value", .ofFloat value)]
  | .read name => [("name", .text name)]
  | .negate operand => [("expr", .text operand)]
  | .binary _ left right => [("lhs", .text left), ("rhs", .text right)]

theorem toJson_eq (expression : Expression) :
    expression.toJson =
      .object ((tagName, .text expression.kind.keyword) :: expression.contents) := by
  cases expression <;> rfl

/-- The document of an expression has only finite numbers, since other numbers
are written as `null`. -/
theorem isFinite_toJson (expression : Expression) : expression.toJson.IsFinite := by
  cases expression with
  | constant value => exact ⟨trivial, Json.isFinite_ofFloat value, trivial⟩
  | read name => exact ⟨trivial, trivial, trivial⟩
  | negate operand => exact ⟨trivial, trivial, trivial⟩
  | binary operator left right => exact ⟨trivial, trivial, trivial, trivial⟩

theorem isNamed_shape : shape.IsNamed := by
  constructor
  · intro tag
    cases tag with
    | constant => decide
    | read => decide
    | negate => decide
    | binary operator =>
        change tagName ∉ ["lhs", "rhs"]
        decide
  · intro tag members others same
    have texts := fun name isName => Wire.textMember?_congr (same name isName)
    have reals := fun name isName => Wire.realMember?_congr (same name isName)
    cases tag <;> simp_all only [shape, List.forall_mem_cons]

theorem writes {expression : Expression} (finite : expression.isNonFiniteConstant = false) :
    shape.Writes expression.kind expression.kind.keyword expression.contents expression := by
  have names := ExpressionKind.ofKeyword?_keyword expression.kind
  cases expression with
  | constant value =>
      have isFinite : value.isFinite = true := by simpa [isNonFiniteConstant] using finite
      have number : Json.ofFloat value = .number (.real value) := if_pos isFinite
      rw [contents, number]
      exact ⟨names, rfl, by simp [Json.IsScalar], rfl⟩
  | read name => exact ⟨names, rfl, by simp [contents, Json.IsScalar], rfl⟩
  | negate operand => exact ⟨names, rfl, by simp [contents, Json.IsScalar], rfl⟩
  | binary operator left right => exact ⟨names, rfl, by simp [contents, Json.IsScalar], rfl⟩

/-- An expression that is no constant off the number line is read back. -/
theorem reads_toJson {expression : Expression} (finite : expression.isNonFiniteConstant = false)
    (room : Nat) : Reads (shape.read (room + 1)) expression.toJson.tokens expression := by
  rw [toJson_eq]
  exact (writes finite).reads_object isNamed_shape

end Expression

namespace Statement

def contents : Statement → List (String × Json)
  | .assign name value => [("name", .text name), ("value", .text value)]
  | .branch condition thenBody elseBody =>
      [("cond", .text condition), ("body1", .text thenBody), ("body2", .text elseBody)]
  | .loop condition body => [("cond", .text condition), ("body", .text body)]
  | .sleep duration => [("value", .text duration)]

theorem toJson_eq (statement : Statement) :
    statement.toJson =
      .object ((tagName, .text statement.kind.keyword) :: statement.contents) := by
  cases statement <;> rfl

theorem isFinite_toJson (statement : Statement) : statement.toJson.IsFinite := by
  cases statement with
  | assign name value => exact ⟨trivial, trivial, trivial, trivial⟩
  | branch condition thenBody elseBody => exact ⟨trivial, trivial, trivial, trivial, trivial⟩
  | loop condition body => exact ⟨trivial, trivial, trivial, trivial⟩
  | sleep duration => exact ⟨trivial, trivial, trivial⟩

theorem isNamed_shape : shape.IsNamed := by
  constructor
  · intro tag
    cases tag <;> decide
  · intro tag members others same
    have texts := fun name isName => Wire.textMember?_congr (same name isName)
    cases tag <;> simp_all only [shape, List.forall_mem_cons]

theorem writes (statement : Statement) :
    shape.Writes statement.kind statement.kind.keyword statement.contents statement := by
  have names := StatementKind.ofKeyword?_keyword statement.kind
  cases statement <;> exact ⟨names, rfl, by simp [contents, Json.IsScalar], rfl⟩

theorem reads_toJson (statement : Statement) (room : Nat) :
    Reads (shape.read (room + 1)) statement.toJson.tokens statement := by
  rw [toJson_eq]
  exact statement.writes.reads_object isNamed_shape

end Statement

end BlockStage

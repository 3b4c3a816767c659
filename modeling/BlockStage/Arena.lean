/-!
# Insertion-ordered tables keyed by identifiers

Every part of a program lives in a table that remembers the order in which its
identifiers were first stored.  Storing under an identifier that is already
present replaces the value in place; a new identifier goes to the end; removal
closes the gap.  The type carries the fact that no identifier occurs twice, so
a table is determined by its entry list and every entry can be found again.
-/

namespace BlockStage

/-- An insertion-ordered table without repeated keys. -/
structure Arena (α : Type) where
  entries : List (String × α)
  keys_nodup : (entries.map Prod.fst).Nodup

namespace Arena

variable {α β : Type}

/-- Two tables with the same entries are equal. -/
theorem ext_entries {first second : Arena α} (same : first.entries = second.entries) :
    first = second := by
  cases first
  cases second
  subst same
  rfl

/-- Replaces the value stored under `id`, or adds a last entry for it. -/
def put (id : String) (value : α) : List (String × α) → List (String × α)
  | [] => [(id, value)]
  | (key, old) :: rest =>
      if key = id then (key, value) :: rest else (key, old) :: put id value rest

theorem map_fst_put (id : String) (value : α) (entries : List (String × α)) :
    (put id value entries).map Prod.fst =
      if id ∈ entries.map Prod.fst then entries.map Prod.fst
      else entries.map Prod.fst ++ [id] := by
  induction entries with
  | nil => simp [put]
  | cons entry rest ih =>
      obtain ⟨key, old⟩ := entry
      by_cases same : key = id
      · simp [put, same]
      · have differs : id ≠ key := fun equal => same equal.symm
        simp only [put, if_neg same, List.map_cons, ih, List.mem_cons, differs, false_or]
        split <;> simp

def empty : Arena α := ⟨[], List.nodup_nil⟩

def keys (arena : Arena α) : List String := arena.entries.map Prod.fst

def size (arena : Arena α) : Nat := arena.entries.length

def find? (arena : Arena α) (id : String) : Option α := arena.entries.lookup id

def contains (arena : Arena α) (id : String) : Bool := (arena.find? id).isSome

/-- Stores a value, in place when the identifier is known and last otherwise. -/
def insert (arena : Arena α) (id : String) (value : α) : Arena α where
  entries := put id value arena.entries
  keys_nodup := by
    rw [map_fst_put]
    split
    · exact arena.keys_nodup
    · rename_i absent
      rw [List.nodup_append]
      refine ⟨arena.keys_nodup, by simp, ?_⟩
      intro first firstMem second secondMem equal
      simp only [List.mem_singleton] at secondMem
      exact absent (secondMem ▸ equal ▸ firstMem)

def erase (arena : Arena α) (id : String) : Arena α where
  entries := arena.entries.filter fun entry => entry.1 != id
  keys_nodup :=
    List.Nodup.sublist (List.Sublist.map Prod.fst List.filter_sublist) arena.keys_nodup

/-- Stores a value, or removes the identifier when there is none to store. -/
def set (arena : Arena α) (id : String) : Option α → Arena α
  | some value => arena.insert id value
  | none => arena.erase id

/-- Stores a sequence of entries one after the other, so that the last value
given for an identifier wins at the place of the first. -/
def ofEntries (entries : List (String × α)) : Arena α :=
  entries.foldl (fun arena entry => arena.insert entry.1 entry.2) empty

/-- Whether two tables hold the same values under the same identifiers, the
order of entries apart. -/
def agreesWith (same : α → α → Bool) (first second : Arena α) : Bool :=
  first.size == second.size &&
    first.entries.all fun entry =>
      match second.find? entry.1 with
      | some value => same entry.2 value
      | none => false

/-! ### What is found after a change -/

/-- Looking up a name in a list takes the first entry that has it. -/
theorem lookup_cons_eq (key other : String) (value : α) (rest : List (String × α)) :
    ((key, value) :: rest).lookup other =
      if other = key then some value else rest.lookup other := by
  by_cases same : other = key
  · simp [same]
  · simp [List.lookup_cons, same, beq_eq_false_iff_ne.mpr same]

theorem lookup_put (id other : String) (value : α) (entries : List (String × α)) :
    (put id value entries).lookup other =
      if other = id then some value else entries.lookup other := by
  induction entries with
  | nil => exact lookup_cons_eq id other value []
  | cons entry rest ih =>
      obtain ⟨key, old⟩ := entry
      by_cases stored : key = id
      · subst stored
        simp only [put, if_true, lookup_cons_eq]
        split <;> rfl
      · simp only [put, if_neg stored, lookup_cons_eq, ih]
        by_cases here : other = key
        · simp [here, stored]
        · simp [here]

theorem lookup_filter_ne (id other : String) (entries : List (String × α)) :
    (entries.filter fun entry => entry.1 != id).lookup other =
      if other = id then none else entries.lookup other := by
  induction entries with
  | nil => simp
  | cons entry rest ih =>
      obtain ⟨key, value⟩ := entry
      by_cases removed : key = id
      · subst removed
        rw [List.filter_cons_of_neg (by simp), ih, lookup_cons_eq]
        split <;> rfl
      · rw [List.filter_cons_of_pos (by simp [removed]), lookup_cons_eq, lookup_cons_eq, ih]
        by_cases here : other = key
        · simp [here, removed]
        · simp [here]

/-- Nothing is found in the table without entries. -/
@[simp]
theorem find?_empty (id : String) : (empty : Arena α).find? id = none := rfl

/-- Storing a value changes what is found under its identifier, and nothing else. -/
theorem find?_insert (arena : Arena α) (id other : String) (value : α) :
    (arena.insert id value).find? other = if other = id then some value else arena.find? other :=
  lookup_put id other value arena.entries

/-- Removing an identifier hides what was found under it, and nothing else. -/
theorem find?_erase (arena : Arena α) (id other : String) :
    (arena.erase id).find? other = if other = id then none else arena.find? other :=
  lookup_filter_ne id other arena.entries

/-- A known identifier keeps its place when it is stored again, and a new one
goes to the end. -/
theorem keys_insert (arena : Arena α) (id : String) (value : α) :
    (arena.insert id value).keys = if id ∈ arena.keys then arena.keys else arena.keys ++ [id] :=
  map_fst_put id value arena.entries

/-- An identifier is a key exactly when a value is found under it. -/
theorem mem_keys_iff (arena : Arena α) (id : String) :
    id ∈ arena.keys ↔ (arena.find? id).isSome := by
  unfold keys find?
  generalize arena.entries = entries
  induction entries with
  | nil => simp
  | cons entry rest ih =>
      obtain ⟨key, value⟩ := entry
      by_cases same : id = key <;> simp [lookup_cons_eq, same, ih]

/-- What is found belongs to the keys. -/
theorem mem_keys_of_find? {arena : Arena α} {id : String} {value : α}
    (found : arena.find? id = some value) : id ∈ arena.keys := by
  rw [mem_keys_iff, found]
  rfl

/-- The entries of a table are what is found in it. -/
theorem mem_entries_iff (arena : Arena α) (id : String) (value : α) :
    (id, value) ∈ arena.entries ↔ arena.find? id = some value := by
  obtain ⟨entries, nodup⟩ := arena
  unfold find?
  induction entries with
  | nil => simp
  | cons entry rest ih =>
      obtain ⟨other, stored⟩ := entry
      obtain ⟨fresh, restNodup⟩ := List.nodup_cons.mp nodup
      rw [lookup_cons_eq, List.mem_cons]
      by_cases same : id = other
      · subst same
        have absent : (id, value) ∉ rest :=
          fun member => fresh (List.mem_map.mpr ⟨(id, value), member, rfl⟩)
        simp [absent, eq_comm]
      · simp [same, ih restNodup]

/-- Removing an identifier that is not there changes nothing. -/
theorem erase_of_absent {arena : Arena α} {id : String} (absent : arena.find? id = none) :
    arena.erase id = arena := by
  apply ext_entries
  apply List.filter_eq_self.mpr
  intro entry member
  have found := (arena.mem_entries_iff entry.1 entry.2).mp member
  simp only [bne_iff_ne]
  intro same
  rw [same, absent] at found
  cases found

/-! ### Walks that never enter an identifier twice -/

/-- How many identifiers of a table a path has not visited yet.  A walk that
follows references, and stops at identifiers on its own path, is bounded by
this number. -/
def unvisited (arena : Arena α) (path : List String) : Nat :=
  arena.keys.countP fun id => decide (id ∉ path)

theorem countP_lt_of_mem {ids path : List String} {id : String}
    (known : id ∈ ids) (unseen : id ∉ path) :
    (ids.countP fun other => decide (other ∉ id :: path)) <
      ids.countP fun other => decide (other ∉ path) := by
  induction ids with
  | nil => cases known
  | cons head rest ih =>
      have restLe :
          (rest.countP fun other => decide (other ∉ id :: path)) ≤
            rest.countP fun other => decide (other ∉ path) := by
        apply List.countP_mono_left
        intro other _
        simp only [List.mem_cons, not_or, decide_eq_true_eq]
        exact And.right
      by_cases same : head = id
      · subst same
        have dropped : decide (head ∉ head :: path) = false := by simp
        have kept : decide (head ∉ path) = true := by simp [unseen]
        rw [List.countP_cons, List.countP_cons, dropped, kept]
        simp only [Bool.false_eq_true, if_false, if_true]
        omega
      · have later : id ∈ rest := by
          rcases List.mem_cons.mp known with equal | later
          · exact absurd equal.symm same
          · exact later
        have smaller := ih later
        simp only [List.countP_cons]
        by_cases seen : head ∈ path
        · simpa [seen] using smaller
        · simpa [seen, same] using smaller

/-- Entering an identifier of the table that is not on the path leaves fewer
identifiers unvisited. -/
theorem unvisited_cons_lt {arena : Arena α} {path : List String} {id : String}
    (known : id ∈ arena.keys) (unseen : id ∉ path) :
    arena.unvisited (id :: path) < arena.unvisited path :=
  countP_lt_of_mem known unseen

end Arena

end BlockStage

import BlockStage.Arena

/-!
# Variable tables

A run keeps its variables in a table that is sorted by name.  Names are
compared by their characters' code points, which is the order of their UTF-8
bytes.  Three variables place the sprite on the stage; they are zero until the
program says otherwise.
-/

namespace BlockStage

/-- The variables that place the sprite: its position and its heading. -/
structure Special where
  x : Float
  y : Float
  angle : Float

/-- A table of variables, strictly ascending by name. -/
structure Bindings where
  pairs : List (String × Float)
  ascending : pairs.Pairwise fun first second => first.1 < second.1

namespace Bindings

/-- Puts a value into an ascending list, in place of an older one. -/
def place (name : String) (value : Float) : List (String × Float) → List (String × Float)
  | [] => [(name, value)]
  | (key, old) :: rest =>
      if name < key then (name, value) :: (key, old) :: rest
      else if key = name then (key, value) :: rest
      else (key, old) :: place name value rest

theorem fst_of_mem_place {name : String} {value : Float} {pairs : List (String × Float)}
    {pair : String × Float} (placed : pair ∈ place name value pairs) :
    pair.1 = name ∨ ∃ old ∈ pairs, old.1 = pair.1 := by
  induction pairs with
  | nil =>
      simp only [place, List.mem_singleton] at placed
      exact Or.inl (by rw [placed])
  | cons entry rest ih =>
      obtain ⟨key, old⟩ := entry
      simp only [place] at placed
      split at placed
      · rcases List.mem_cons.mp placed with new | kept
        · exact Or.inl (by rw [new])
        · exact Or.inr ⟨pair, kept, rfl⟩
      · split at placed
        · rcases List.mem_cons.mp placed with new | kept
          · exact Or.inr ⟨(key, old), by simp, by rw [new]⟩
          · exact Or.inr ⟨pair, by simp [kept], rfl⟩
        · rcases List.mem_cons.mp placed with new | later
          · exact Or.inr ⟨(key, old), by simp, by rw [new]⟩
          · rcases ih later with same | ⟨kept, keptMem, keptName⟩
            · exact Or.inl same
            · exact Or.inr ⟨kept, by simp [keptMem], keptName⟩

theorem place_ascending (name : String) (value : Float) {pairs : List (String × Float)}
    (ascending : pairs.Pairwise fun first second => first.1 < second.1) :
    (place name value pairs).Pairwise fun first second => first.1 < second.1 := by
  induction pairs with
  | nil => simp [place]
  | cons entry rest ih =>
      obtain ⟨key, old⟩ := entry
      obtain ⟨above, restAscending⟩ := List.pairwise_cons.mp ascending
      simp only [place]
      split
      · rename_i before
        refine List.pairwise_cons.mpr ⟨?_, ascending⟩
        intro pair pairMem
        rcases List.mem_cons.mp pairMem with same | later
        · rw [same]
          exact before
        · exact String.lt_trans before (above pair later)
      · rename_i notBefore
        split
        · exact List.pairwise_cons.mpr ⟨above, restAscending⟩
        · rename_i differs
          refine List.pairwise_cons.mpr ⟨?_, ih restAscending⟩
          intro pair placed
          rcases fst_of_mem_place placed with same | ⟨kept, keptMem, keptName⟩
          · rw [same]
            refine Decidable.byContradiction fun notAfter => differs ?_
            exact String.le_antisymm (String.not_lt.mp notBefore) (String.not_lt.mp notAfter)
          · rw [← keptName]
            exact above kept keptMem

def empty : Bindings := ⟨[], List.Pairwise.nil⟩

def set (bindings : Bindings) (name : String) (value : Float) : Bindings :=
  ⟨place name value bindings.pairs, place_ascending name value bindings.ascending⟩

def get? (bindings : Bindings) (name : String) : Option Float :=
  bindings.pairs.lookup name

theorem lookup_place (name other : String) (value : Float) (pairs : List (String × Float)) :
    (place name value pairs).lookup other =
      if other = name then some value else pairs.lookup other := by
  induction pairs with
  | nil => exact Arena.lookup_cons_eq name other value []
  | cons entry rest ih =>
      obtain ⟨key, old⟩ := entry
      simp only [place]
      split
      · simp only [Arena.lookup_cons_eq]
      · split
        · rename_i known
          subst known
          simp only [Arena.lookup_cons_eq]
          split <;> rfl
        · rename_i differs
          simp only [Arena.lookup_cons_eq, ih]
          by_cases here : other = key
          · simp [here, differs]
          · simp [here]

/-- Binding a name changes the value of that name and of no other. -/
theorem get?_set (bindings : Bindings) (name other : String) (value : Float) :
    (bindings.set name value).get? other =
      if other = name then some value else bindings.get? other :=
  lookup_place name other value bindings.pairs

def size (bindings : Bindings) : Nat := bindings.pairs.length

/-- The table a run starts from: the special variables at zero. -/
def seeded : Bindings := ((empty.set "x" 0).set "y" 0).set "angle" 0

/-- The special variables, zero where they are not bound. -/
def special (bindings : Bindings) : Special where
  x := (bindings.get? "x").getD 0
  y := (bindings.get? "y").getD 0
  angle := (bindings.get? "angle").getD 0

end Bindings

end BlockStage

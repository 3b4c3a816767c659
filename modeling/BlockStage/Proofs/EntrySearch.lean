import BlockStage.Pages.Cursor
import Mathlib.Data.List.Basic

/-!
# Entries of an index are found

The entries of an index hang on all the pages of a tree, and in their order those below a
cell come in front of it.  A search halves the cells of a page until it meets what is sought or
knows between which cells it has to be, and goes on below.  If the entries stand in the order in
which they are compared, the search ends at an entry that is sought whenever there is one.
-/

namespace BlockStage

namespace Pages

/-- What comes in front of something else does not compare greater with what is sought. -/
def Ascends (first second : Ordering) : Prop := first = second ∨ first = .lt ∨ second = .gt

theorem Ascends.eq_lt {first : Ordering} (ascends : Ascends first .lt) : first = .lt := by
  rcases ascends with same | less | greater
  · exact same
  · exact less
  · cases greater

theorem Ascends.eq_gt {second : Ordering} (ascends : Ascends .gt second) : second = .gt := by
  rcases ascends with same | less | greater
  · exact same.symm
  · cases less
  · exact greater

namespace Volume

/-! ### One page -/

/-- All cells in front of a position are less than what is sought, and all others greater. -/
structure Divides (order : Nat → Ordering) (count position : Nat) : Prop where
  within : position ≤ count
  before : ∀ index < position, order index = .lt
  behind : ∀ index, position ≤ index → index < count → order index = .gt

theorem Divides.ne_eq {order : Nat → Ordering} {count position : Nat}
    (divides : Divides order count position) {index : Nat} (within : index < count) :
    order index ≠ .eq := by
  rcases Nat.lt_or_ge index position with before | behind
  · simp [divides.before index before]
  · simp [divides.behind index behind within]

section OnePage

variable {compare : Nat → Option Ordering} {order : Nat → Ordering} {count : Nat}
  (ascends : ∀ first second, first < second → second < count →
    Ascends (order first) (order second))

include ascends

theorem lt_before {index : Nat} (within : index < count) (less : order index = .lt) :
    ∀ other < index + 1, order other = .lt := by
  intro other before
  rcases Nat.lt_succ_iff_lt_or_eq.mp before with earlier | rfl
  · exact (less ▸ ascends other index earlier within).eq_lt
  · exact less

theorem gt_behind {index : Nat} (greater : order index = .gt) :
    ∀ other, index ≤ other → other < count → order other = .gt := by
  intro other beyond inside
  rcases Nat.eq_or_lt_of_le beyond with rfl | later
  · exact greater
  · exact (greater ▸ ascends index other later inside).eq_gt

/-- A search among cells in order ends at one that is sought, or finds where it would be. -/
theorem searchFrom?_of_ascends (compares : ∀ index < count, compare index = some (order index))
    {fuel low high index : Nat} (before : ∀ other < low, order other = .lt)
    (behind : ∀ other, high ≤ other → other < count → order other = .gt)
    (above : low ≤ index) (below : index < high) (within : high ≤ count)
    (enough : high ≤ low + fuel) :
    ∃ last position, searchFrom? compare fuel low high index = some (last, order last, position) ∧
      last < count ∧ (order last ≠ .eq → Divides order count position) := by
  induction fuel generalizing low high index with
  | zero => omega
  | succ fuel ih =>
      have inside : index < count := by omega
      rw [searchFrom?, compares index inside]
      cases found : order index with
      | eq => exact ⟨index, index, by rw [found], inside, fun other => absurd found other⟩
      | lt =>
          have less := lt_before ascends inside found
          by_cases last : index + 1 ≥ high
          · exact ⟨index, index + 1, by simp [last, found], inside,
              fun _ => ⟨inside, less, fun other beyond => behind other (by omega)⟩⟩
          · simp only [if_neg last]
            exact ih less behind (by omega) (by omega) within (by omega)
      | gt =>
          have greater := gt_behind ascends found
          by_cases first : index ≤ low
          · exact ⟨index, low, by simp [first, found], inside,
              fun _ => ⟨by omega, before, fun other beyond => greater other (by omega)⟩⟩
          · simp only [if_neg first]
            exact ih before greater (by omega) (by omega) (by omega) (by omega)

end OnePage

/-! ### The tree -/

/-- The entries on a page and below it, in their order: those below each cell come in front of
it, and those below the last page behind all cells. -/
inductive Keeps (volume : Volume) : Nat → Page → List (Page × Nat) → Prop where
  | leaf {page : Page} {depth : Nat} (isIndex : page.isTable = false) (some_cell : 0 < page.count)
      (isLeaf : page.isLeaf = true) :
      Keeps volume depth page ((List.range page.count).map (page, ·))
  | inner {page : Page} {depth : Nat} (isIndex : page.isTable = false) (some_cell : 0 < page.count)
      (isInner : page.isLeaf = false) (children : Nat → Page) (below : Nat → List (Page × Nat))
      (leads : ∀ index ≤ page.count, volume.page? (page.child index) = some (children index))
      (keeps : ∀ index ≤ page.count, Keeps volume depth (children index) (below index)) :
      Keeps volume (depth + 1) page
        ((List.range page.count).flatMap (fun index => below index ++ [(page, index)]) ++
          below page.count)

theorem Keeps.isIndex_and_some_cell {volume : Volume} {depth : Nat} {page : Page}
    {entries : List (Page × Nat)} (keeps : volume.Keeps depth page entries) :
    page.isTable = false ∧ 0 < page.count := by
  cases keeps with
  | leaf isIndex some_cell => exact ⟨isIndex, some_cell⟩
  | inner isIndex some_cell => exact ⟨isIndex, some_cell⟩

/-- The entry at which a search has ended. -/
def Found.entry (found : Found) : Page × Nat := (found.cursor.page, found.cursor.index)

/-- A search has ended at an entry, and at one that is sought if there is any. -/
structure Found.Fits (found : Found) (order : Page × Nat → Ordering)
    (entries : List (Page × Nat)) : Prop where
  mem : found.entry ∈ entries
  order_eq : found.order = order found.entry
  missing : found.order ≠ .eq → ∀ entry ∈ entries, order entry ≠ .eq

section Inner

variable {relation : Page × Nat → Page × Nat → Prop} {page : Page} {count : Nat}
  {below : Nat → List (Page × Nat)}

/-- The entries of an inner page are those on it and those below it. -/
theorem mem_inner {entry : Page × Nat} :
    entry ∈ (List.range count).flatMap (fun index => below index ++ [(page, index)]) ++
        below count ↔
      (∃ index < count, entry = (page, index)) ∨ ∃ index ≤ count, entry ∈ below index := by
  simp only [List.mem_append, List.mem_flatMap, List.mem_range, List.mem_singleton]
  constructor
  · rintro (⟨index, within, isBelow | isCell⟩ | isBelow)
    · exact .inr ⟨index, Nat.le_of_lt within, isBelow⟩
    · exact .inl ⟨index, within, isCell⟩
    · exact .inr ⟨count, Nat.le_refl count, isBelow⟩
  · rintro (⟨index, within, isCell⟩ | ⟨index, within, isBelow⟩)
    · exact .inl ⟨index, within, .inr isCell⟩
    · rcases Nat.lt_or_eq_of_le within with inside | rfl
      · exact .inl ⟨index, inside, .inl isBelow⟩
      · exact .inr isBelow

theorem forall_of_pairwise_range {relation : Nat → Nat → Prop}
    (pairwise : (List.range count).Pairwise relation) :
    ∀ first second, first < second → second < count → relation first second := by
  intro first second before within
  have related := List.pairwise_iff_getElem.mp pairwise first second
    (by simpa using Nat.lt_trans before within) (by simpa using within) before
  rwa [List.getElem_range, List.getElem_range] at related

/-- The cells of an inner page are in order, and so are the entries below each of them and the
cells on both sides of these. -/
structure Interleaves (relation : Page × Nat → Page × Nat → Prop) (page : Page) (count : Nat)
    (below : Nat → List (Page × Nat)) : Prop where
  cells : ∀ first second, first < second → second < count →
    relation (page, first) (page, second)
  inFront : ∀ index < count, ∀ entry ∈ below index, relation entry (page, index)
  behind : ∀ index < count, ∀ entry ∈ below (index + 1), relation (page, index) entry
  within : ∀ index ≤ count, (below index).Pairwise relation

theorem interleaves_of_pairwise
    (pairwise : ((List.range count).flatMap (fun index => below index ++ [(page, index)]) ++
      below count).Pairwise relation) : Interleaves relation page count below := by
  obtain ⟨front, last, across⟩ := List.pairwise_append.mp pairwise
  obtain ⟨blocks, between⟩ := List.pairwise_flatMap.mp front
  have apart := forall_of_pairwise_range between
  have block : ∀ index < count, (below index).Pairwise relation ∧
      ∀ entry ∈ below index, relation entry (page, index) := by
    intro index within
    obtain ⟨each, -, inFront⟩ := List.pairwise_append.mp (blocks index (List.mem_range.mpr within))
    exact ⟨each, fun entry isBelow => inFront entry isBelow _ (List.mem_singleton.mpr rfl)⟩
  refine ⟨?_, fun index within => (block index within).2, ?_, ?_⟩
  · intro first second before within
    exact apart first second before within _ (by simp) _ (by simp)
  · intro index within entry isBelow
    rcases Nat.lt_or_eq_of_le (Nat.succ_le_of_lt within) with inside | isLast
    · exact apart index (index + 1) (Nat.lt_succ_self index) inside _ (by simp) _
        (List.mem_append_left _ isBelow)
    · refine across _ ?_ _ (isLast ▸ isBelow)
      exact List.mem_flatMap.mpr ⟨index, List.mem_range.mpr within, by simp⟩
  · intro index within
    rcases Nat.lt_or_eq_of_le within with inside | rfl
    · exact (block index inside).1
    · exact last

end Inner

section Search

variable {volume : Volume} {compare : Page → Nat → Option Ordering}
  {order : Page × Nat → Ordering}

theorem down?_eq_some {cursor : Cursor} {number : Nat} {page : Page} {depth : Nat}
    {entries : List (Page × Nat)} (leads : volume.page? number = some page)
    (keeps : volume.Keeps depth page entries) (isIndex : cursor.page.isTable = false)
    (room : cursor.way.length + 1 < maxDepth) :
    volume.down? cursor number = some ⟨(cursor.page, cursor.index) :: cursor.way, page, 0⟩ := by
  obtain ⟨alike, some_cell⟩ := keeps.isIndex_and_some_cell
  rw [down?, if_neg (by omega), leads]
  simp only [alike, isIndex, ne_eq, not_true, or_false]
  rw [if_neg (by omega)]

/-- An entry that is sought hangs below the position that divides the cells of its page. -/
theorem Interleaves.ne_eq {page : Page} {count position : Nat}
    {below : Nat → List (Page × Nat)}
    (interleaves : Interleaves (fun first second => Ascends (order first) (order second)) page count
      below)
    (divides : Divides (fun index => order (page, index)) count position)
    (missing : ∀ entry ∈ below position, order entry ≠ .eq) {entry : Page × Nat}
    (isEntry : (∃ index < count, entry = (page, index)) ∨ ∃ index ≤ count, entry ∈ below index) :
    order entry ≠ .eq := by
  rcases isEntry with ⟨index, within, rfl⟩ | ⟨index, within, isBelow⟩
  · exact divides.ne_eq within
  · rcases Nat.lt_trichotomy index position with before | rfl | behind
    · have isCell : index < count := Nat.lt_of_lt_of_le before divides.within
      have ascends := interleaves.inFront index isCell entry isBelow
      simp [(divides.before index before ▸ ascends).eq_lt]
    · exact missing entry isBelow
    · obtain ⟨index, rfl⟩ := Nat.exists_eq_succ_of_ne_zero (Nat.ne_zero_of_lt behind)
      have ascends := interleaves.behind index within entry isBelow
      simp [(divides.behind index (Nat.le_of_lt_succ behind) within ▸ ascends).eq_gt]

theorem exists_searchFrom? {page : Page} (some_cell : 0 < page.count)
    (compares : ∀ index < page.count, compare page index = some (order (page, index)))
    (ascends : ∀ first second, first < second → second < page.count →
      Ascends (order (page, first)) (order (page, second))) :
    ∃ last position,
      searchFrom? (compare page) (page.count + 1) 0 page.count ((page.count - 1) / 2) =
        some (last, order (page, last), position) ∧ last < page.count ∧
      (order (page, last) ≠ .eq →
        Divides (fun index => order (page, index)) page.count position) := by
  refine searchFrom?_of_ascends ascends compares ?_ ?_ (Nat.zero_le _) (by omega) (Nat.le_refl _)
    (by omega)
  · exact fun other before => absurd before (Nat.not_lt_zero other)
  · exact fun other behind inside => absurd inside (Nat.not_lt.mpr behind)

/-- A search below a page ends at an entry, and at one that is sought if there is any. -/
theorem searchDown?_of_keeps {depth : Nat} {page : Page} {entries : List (Page × Nat)}
    (keeps : volume.Keeps depth page entries)
    (compares : ∀ entry ∈ entries, compare entry.1 entry.2 = some (order entry))
    (ascends : entries.Pairwise fun first second => Ascends (order first) (order second))
    {fuel : Nat} (enough : depth < fuel) {cursor : Cursor} (isPage : cursor.page = page)
    (room : cursor.way.length + depth < maxDepth) :
    ∃ found, volume.searchDown? compare fuel cursor = some found ∧ found.Fits order entries := by
  induction keeps generalizing fuel cursor with
  | @leaf page depth isIndex some_cell isLeaf =>
      obtain ⟨fuel, rfl⟩ := Nat.exists_eq_succ_of_ne_zero (Nat.ne_zero_of_lt enough)
      have cells := forall_of_pairwise_range (List.pairwise_map.mp ascends)
      obtain ⟨last, position, searched, within, divides⟩ := exists_searchFrom? some_cell
        (fun index inside => compares (page, index) (by simpa using inside)) cells
      refine ⟨⟨⟨cursor.way, page, last⟩, order (page, last)⟩, ?_, ?_, rfl, ?_⟩
      · subst isPage
        simp only [searchDown?, searched, isLeaf, true_or, if_true]
      · simpa [Found.entry] using within
      · intro other entry isEntry
        obtain ⟨index, inside, rfl⟩ := List.mem_map.mp isEntry
        exact (divides other).ne_eq (List.mem_range.mp inside)
  | @inner page depth isIndex some_cell isInner children below leads keeps ih =>
      obtain ⟨fuel, rfl⟩ := Nat.exists_eq_succ_of_ne_zero (Nat.ne_zero_of_lt enough)
      have interleaves := interleaves_of_pairwise ascends
      have isCell : ∀ index < page.count, (page, index) ∈ (List.range page.count).flatMap
          (fun index => below index ++ [(page, index)]) ++ below page.count :=
        fun index inside => mem_inner.mpr (.inl ⟨index, inside, rfl⟩)
      obtain ⟨last, position, searched, within, divides⟩ := exists_searchFrom? some_cell
        (fun index inside => compares (page, index) (isCell index inside)) interleaves.cells
      subst isPage
      by_cases met : order (cursor.page, last) = .eq
      · refine ⟨⟨{ cursor with index := last }, order (cursor.page, last)⟩, ?_,
          isCell last within, rfl, fun other => absurd met other⟩
        simp [searchDown?, searched, isIndex, met]
      · have inside := (divides met).within
        have down := @down?_eq_some volume { cursor with index := position } _ _ _ _
          (leads position inside) (keeps position inside) isIndex (by simp only; omega)
        obtain ⟨found, went, fits⟩ := @ih position inside
          (fun entry isBelow => compares entry (mem_inner.mpr (.inr ⟨position, inside, isBelow⟩)))
          (interleaves.within position inside) fuel (Nat.lt_of_succ_lt_succ enough)
          ⟨(cursor.page, position) :: cursor.way, children position, 0⟩ rfl
          (by simp only [List.length_cons]; omega)
        refine ⟨found, ?_, ?_, fits.order_eq, ?_⟩
        · simp only [searchDown?, searched, isInner, met, down, went]
          simp
        · exact mem_inner.mpr (.inr ⟨position, inside, fits.mem⟩)
        · intro other entry isEntry
          exact interleaves.ne_eq (divides met) (fits.missing other) (mem_inner.mp isEntry)

/-- A search of an index whose entries stand in order ends at an entry, and what is sought is
found if and only if it is there. -/
theorem search?_of_keeps {root depth : Nat} {page : Page} {entries : List (Page × Nat)}
    (isRoot : volume.page? root = some page) (keeps : volume.Keeps depth page entries)
    (shallow : depth < maxDepth)
    (compares : ∀ entry ∈ entries, compare entry.1 entry.2 = some (order entry))
    (ascends : entries.Pairwise fun first second => Ascends (order first) (order second)) :
    ∃ found, volume.search? false root compare = some (some found) ∧ found.entry ∈ entries ∧
      found.order = order found.entry ∧
      (found.order = .eq ↔ ∃ entry ∈ entries, order entry = .eq) := by
  obtain ⟨isIndex, some_cell⟩ := keeps.isIndex_and_some_cell
  obtain ⟨found, searched, fits⟩ := @searchDown?_of_keeps _ _ _ _ _ _ keeps compares ascends _
    shallow ⟨[], page, 0⟩ rfl (by simpa using shallow)
  refine ⟨found, ?_, fits.mem, fits.order_eq, ?_, ?_⟩
  · simp [search?, root?, isRoot, isIndex, some_cell, searched]
  · intro met
    exact ⟨found.entry, fits.mem, fits.order_eq ▸ met⟩
  · rintro ⟨entry, isEntry, sought⟩
    by_contra other
    exact fits.missing other entry isEntry sought

end Search

end Volume

end Pages

end BlockStage

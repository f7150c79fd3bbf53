import Mathlib.Data.List.Basic
import Mathlib.Data.List.Perm.Basic
import TablePipeline.Rows.Window

/-! # Groups and places

Grouping loses no item and makes no empty group. A window function numbers the rows, groups and
sorts them, and looks its values up by number: every row has a number of its own, so every row finds
the value that was computed for it.
-/

namespace TablePipeline

variable {α : Type} {key : α → Row}

/-- Induction in the way in which items are grouped: what holds of the items that are left after the
first group holds of all. -/
theorem groupsOf_induction (key : α → Row) {holds : List α → Prop} (nil : holds [])
    (cons : ∀ item rest, holds (rest.filter fun other => !(key other).same (key item)) →
      holds (item :: rest)) : ∀ items, holds items
  | [] => nil
  | item :: rest => cons item rest (groupsOf_induction key nil cons _)
termination_by items => items.length
decreasing_by
  simpa [Nat.lt_succ_iff] using List.length_filter_le _ rest

/-- The groups together hold the items that are grouped. -/
theorem flatten_groupsOf_perm (key : α → Row) (items : List α) :
    (groupsOf key items).flatten.Perm items := by
  induction items using groupsOf_induction key with
  | nil =>
    rw [groupsOf]
    exact .nil
  | cons item rest ih =>
    rw [groupsOf, List.flatten_cons, List.cons_append]
    exact .cons item ((ih.append_left _).trans (List.filter_append_perm _ rest))

/-- An item of a group is one of those that are grouped. -/
theorem mem_of_mem_groupsOf {items group : List α} (member : group ∈ groupsOf key items) {item : α}
    (isItem : item ∈ group) : item ∈ items :=
  (flatten_groupsOf_perm key items).subset (List.mem_flatten_of_mem member isItem)

/-- A group has an item. -/
theorem ne_nil_of_mem_groupsOf {items group : List α} (member : group ∈ groupsOf key items) :
    group ≠ [] := by
  induction items using groupsOf_induction key with
  | nil =>
    rw [groupsOf] at member
    cases member
  | cons item rest ih =>
    rw [groupsOf] at member
    rcases List.mem_cons.mp member with rfl | member
    · exact List.cons_ne_nil _ _
    · exact ih member

theorem length_ranksFrom (tied : α → α → Bool) (rank place : Nat) (items : List α) :
    (ranksFrom tied rank place items).length = items.length := by
  fun_induction ranksFrom tied rank place items with
  | case1 | case2 => rfl
  | case3 rank place item next rest ih => exact congrArg (· + 1) ih

namespace BoundWindow

variable {partition : List Nat} {keys : List (Nat × OrderKey)}

theorem length_values (function : BoundWindow) (rows : List Row) :
    (function.values keys rows).length = rows.length := by
  cases function with
  | rowNumber | lead | lag => rw [values, List.length_map, List.length_range]
  | rank => rw [values, List.length_map, length_ranksFrom]

/-- The rows of every part in their order, each with its place among all rows. -/
def parts (partition : List Nat) (keys : List (Nat × OrderKey)) (rows : List Row) :
    List (List (Row × Nat)) :=
  (groupsOf (fun (row, _) => row.pick partition) rows.zipIdx).map (sortRows keys (·.1))

/-- What is computed for the ordered rows of every part, with the places of the rows. -/
def scattered {β : Type} (partition : List Nat) (keys : List (Nat × OrderKey)) (rows : List Row)
    (compute : List Row → List β) : List (Nat × β) :=
  (parts partition keys rows).flatMap fun part =>
    (part.map (·.2)).zip (compute (part.map (·.1)))

theorem placed_eq_scattered (function : BoundWindow) (rows : List Row) :
    function.placed partition keys rows = scattered partition keys rows (function.values keys) := by
  rw [placed, scattered, parts, List.flatMap_map]

/-- The parts together hold all rows. -/
theorem flatten_parts_perm (rows : List Row) :
    (parts partition keys rows).flatten.Perm rows.zipIdx := by
  refine List.Perm.trans ?_ (flatten_groupsOf_perm (fun (row, _) => row.pick partition) _)
  rw [parts, ← List.flatMap_def, List.flatten_eq_flatMap]
  exact List.Perm.flatMap (.refl _) fun group _ => List.mergeSort_perm group _

/-- A row of a part is one of the rows. -/
theorem mem_of_mem_parts {rows : List Row} {part : List (Row × Nat)}
    (member : part ∈ parts partition keys rows) {row : Row} (isRow : row ∈ part.map (·.1)) :
    row ∈ rows := by
  obtain ⟨numbered, inPart, rfl⟩ := List.mem_map.mp isRow
  have inAll := (flatten_parts_perm rows).subset (List.mem_flatten_of_mem member inPart)
  exact List.fst_mem_of_mem_zipIdx inAll

/-- What is computed for as many rows as there are gets to every place among them, and once. -/
theorem places_scattered_perm {β : Type} {compute : List Row → List β}
    (lengths : ∀ rows, (compute rows).length = rows.length) (rows : List Row) :
    ((scattered partition keys rows compute).map (·.1)).Perm (List.range rows.length) := by
  have places : (scattered partition keys rows compute).map (·.1) =
      (parts partition keys rows).flatten.map (·.2) := by
    rw [scattered, List.map_flatMap, List.map_flatten, ← List.flatMap_def]
    refine List.flatMap_congr fun part _ => List.map_fst_zip (Nat.le_of_eq ?_)
    rw [lengths, List.length_map, List.length_map]
  rw [places, List.range_eq_range', ← List.zipIdx_map_snd]
  exact (flatten_parts_perm rows).map _

/-- Every place among the rows gets one value. -/
theorem places_perm (function : BoundWindow) (rows : List Row) :
    ((function.placed partition keys rows).map (·.1)).Perm (List.range rows.length) := by
  rw [placed_eq_scattered]
  exact places_scattered_perm function.length_values rows

/-- The value of a row is one of those that are computed for its part. -/
theorem exists_part_of_mem_column {function : BoundWindow} {rows : List Row} {value : Cell}
    (member : value ∈ function.column partition keys rows) :
    ∃ part ∈ parts partition keys rows, value ∈ function.values keys (part.map (·.1)) := by
  rw [column, List.mem_map] at member
  obtain ⟨place, inside, rfl⟩ := member
  have placed : place ∈ (function.placed partition keys rows).map (·.1) :=
    (function.places_perm rows).symm.subset inside
  obtain ⟨entry, isEntry, same⟩ := List.mem_map.mp placed
  obtain ⟨value, found⟩ := Option.isSome_iff_exists.mp
    (List.lookup_isSome_iff.mpr ⟨entry, isEntry, beq_iff_eq.mpr same.symm⟩)
  rw [found, Option.getD_some]
  obtain ⟨before, after, split, _⟩ := List.lookup_eq_some_iff.mp found
  have isPlaced : (place, value) ∈ function.placed partition keys rows := by
    rw [split]
    exact List.mem_append_right _ (List.mem_cons_self ..)
  rw [placed_eq_scattered, scattered, List.mem_flatMap] at isPlaced
  obtain ⟨part, isPart, isPair⟩ := isPlaced
  exact ⟨part, isPart, (List.of_mem_zip isPair).2⟩

end BoundWindow

end TablePipeline

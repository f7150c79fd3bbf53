import Mathlib.Data.List.Nodup
import TablePipeline.Proofs.Except
import TablePipeline.Proofs.Rows.Grouping
import TablePipeline.Proofs.Rows.Joining

/-! # Rows that differ on a key

Rows are distinct on some columns if no two of them hold the same cells there; on no columns at all,
that leaves one row at most. Distinct rows stay so when some are left out or when they change places,
and when each is made into a row that holds the same cells in other columns. The heads of groups are
distinct on what is grouped by. A row has one partner at most among rows that are distinct on
columns of the join key.
-/

namespace TablePipeline

namespace Row

/-- Are rows pairwise distinct on some columns? -/
def DistinctOn (key : List Nat) (rows : List Row) : Prop :=
  rows.Pairwise fun row other => (row.pick key).same (other.pick key) = false

instance (key : List Nat) (rows : List Row) : Decidable (DistinctOn key rows) :=
  inferInstanceAs (Decidable (rows.Pairwise _))

theorem same_iff {row other : Row} :
    row.same other = true ↔ row.map Cell.canonical = other.map Cell.canonical :=
  decide_eq_true_iff

theorem same_eq_false_iff {row other : Row} :
    row.same other = false ↔ row.map Cell.canonical ≠ other.map Cell.canonical :=
  decide_eq_false_iff_not

/-- Rows are distinct on columns where the representatives of their cells do not repeat. -/
theorem distinctOn_iff_nodup {key : List Nat} {rows : List Row} :
    DistinctOn key rows ↔ (rows.map fun row => (row.pick key).map Cell.canonical).Nodup := by
  rw [DistinctOn, List.Nodup, List.pairwise_map]
  simp only [same_eq_false_iff]

namespace DistinctOn

variable {key : List Nat} {rows others : List Row}

theorem sublist (distinct : DistinctOn key others) (part : rows.Sublist others) :
    DistinctOn key rows :=
  List.Pairwise.sublist part distinct

theorem perm (distinct : DistinctOn key rows) (moved : rows.Perm others) : DistinctOn key others :=
  distinctOn_iff_nodup.mpr ((moved.map _).nodup_iff.mp (distinctOn_iff_nodup.mp distinct))

/-- Rows that hold the cells of distinct rows, in whatever columns, are distinct there. -/
theorem carry {moved : List Nat} (distinct : DistinctOn key rows)
    (carries : List.Forall₂ (fun row other => other.pick moved = row.pick key) rows others) :
    DistinctOn moved others := by
  rw [distinctOn_iff_nodup] at distinct ⊢
  have same : others.map (fun row => (row.pick moved).map Cell.canonical) =
      rows.map fun row => (row.pick key).map Cell.canonical := by
    clear distinct
    induction carries with
    | nil => rfl
    | cons first _ ih => rw [List.map_cons, List.map_cons, first, ih]
  rwa [same]

/-- Rows that are made of items hold the cells of distinct rows that belong to the items. -/
theorem carry_map {α : Type} {items : List α} {origin result : α → Row} {moved : List Nat}
    (distinct : DistinctOn key (items.map origin))
    (carries : ∀ item ∈ items, (result item).pick moved = (origin item).pick key) :
    DistinctOn moved (items.map result) := by
  refine distinct.carry ?_
  rw [List.forall₂_map_left_iff, List.forall₂_map_right_iff, List.forall₂_same]
  exact carries

/-- Where rows are distinct, those that hold the same cells are one at most. -/
theorem length_le_one (distinct : DistinctOn key rows)
    (alike : ∀ row ∈ rows, ∀ other ∈ rows, (row.pick key).same (other.pick key) = true) :
    rows.length ≤ 1 := by
  match rows, distinct with
  | [], _ => exact Nat.zero_le 1
  | [_], _ => exact Nat.le_refl 1
  | row :: other :: rest, distinct =>
    have differ := List.rel_of_pairwise_cons distinct (List.mem_cons_self ..)
    rw [alike row (.head _) other (.tail _ (.head _))] at differ
    cases differ

end DistinctOn

/-- A row that has the cells of some columns in other places has them there. -/
theorem pick_of_moved {moved : Nat → Option Nat} {key places : List Nat}
    (found : key.mapM moved = some places) {row result : Row}
    (carries : ∀ position ∈ key, ∀ place, moved position = some place →
      result.cell place = row.cell position) : result.pick places = row.pick key := by
  have each := mapM_eq_some.mp found
  clear found
  induction each with
  | nil => rfl
  | @cons position place _ _ first _ ih =>
    have here := carries position (.head _) place first
    have others := ih fun other member => carries other (.tail _ member)
    rw [pick, List.map_cons, here]
    exact congrArg (row.cell position :: ·) others

/-- The first cells of a row. -/
theorem pick_range_append (front back : Row) :
    Row.pick (front ++ back) (List.range front.length) = front := by
  refine List.ext_getElem (by simp [pick]) fun place inside bound => ?_
  simp [pick, cell, List.getElem?_append_left bound, List.getElem?_eq_getElem bound]

end Row

/-! ## Groups -/

/-- No two groups have the same cells in the columns that are grouped by. -/
theorem distinctOn_heads (key : List Nat) (rows : List Row) :
    Row.DistinctOn key ((groupsOf (fun row : Row => row.pick key) rows).map (·.headD [])) := by
  induction rows using groupsOf_induction (fun row : Row => row.pick key) with
  | nil =>
    rw [groupsOf]
    exact .nil
  | cons row rest ih =>
    rw [groupsOf]
    refine .cons (fun head member => ?_) ih
    obtain ⟨group, isGroup, rfl⟩ := List.mem_map.mp member
    obtain ⟨first, others, rfl⟩ := List.exists_cons_of_ne_nil (ne_nil_of_mem_groupsOf isGroup)
    have left := mem_of_mem_groupsOf isGroup (List.mem_cons_self ..)
    have differ := (List.mem_filter.mp left).2
    rw [Bool.not_eq_true', Row.same_eq_false_iff] at differ
    exact Row.same_eq_false_iff.mpr differ.symm

/-! ## Joins -/

/-- What is computed for each element, where something is computed for all of them. -/
theorem eq_map_of_mapM {α β : Type} {f : α → Option β} {items : List α} {results : List β}
    (found : items.mapM f = some results) (other : β) :
    results = items.map fun item => (f item).getD other := by
  have each := mapM_eq_some.mp found
  clear found
  induction each with
  | nil => rfl
  | cons first _ ih => rw [List.map_cons, first, Option.getD_some, ih]

theorem Row.getD_keyCell (cell : Cell) : (Row.keyCell false cell).getD .null = cell := by
  cases cell <;> rfl

section Joins

variable {columns : List JoinKeyColumn} {right : List Row}

/-- Rows with the same key hold the same cells in the columns that are compared as they are. -/
theorem same_cell_of_joinKey {row other key key' : Row}
    (found : row.joinKey (columns.map fun column => (column.right, column.widened)) = some key)
    (found' : other.joinKey (columns.map fun column => (column.right, column.widened)) = some key')
    (same : key.map Cell.canonical = key'.map Cell.canonical) {column : JoinKeyColumn}
    (member : column ∈ columns) (exact : column.widened = false) :
    (row.cell column.right).canonical = (other.cell column.right).canonical := by
  rw [eq_map_of_mapM found .null, eq_map_of_mapM found' .null, List.map_map, List.map_map,
    List.map_map, List.map_map] at same
  have cells := List.map_inj_left.mp same column member
  dsimp only [Function.comp_apply] at cells
  rwa [exact, Row.getD_keyCell, Row.getD_keyCell] at cells

/-- A row has one partner at most, if the rows of the right side are distinct on columns of the join
key that are compared as they are. -/
theorem length_joinPartners_le_one {key : List Nat} (distinct : Row.DistinctOn key right)
    (covered : ∀ position ∈ key, ∃ column ∈ columns, column.right = position ∧
      column.widened = false) (row : Row) : (joinPartners id columns right row).length ≤ 1 := by
  refine (distinct.sublist (joinPartners_sublist row)).length_le_one
    fun partner member other member' => ?_
  -- both partners have the key of the row
  obtain ⟨sought, found, isSought, isKey, same⟩ := same_joinKey_of_mem_joinPartners member
  obtain ⟨sought', found', isSought', isKey', same'⟩ := same_joinKey_of_mem_joinPartners member'
  cases isSought.symm.trans isSought'
  have keys := (Row.same_iff.mp same).trans (Row.same_iff.mp same').symm
  rw [Row.same_iff, Row.pick, Row.pick, List.map_map, List.map_map]
  refine List.map_congr_left fun position inKey => ?_
  obtain ⟨column, isColumn, rfl, exact⟩ := covered position inKey
  exact same_cell_of_joinKey isKey isKey' keys isColumn exact

variable {kind : JoinKind} (single : ∀ row, (joinPartners id columns right row).length ≤ 1)

include single

/-- With one partner at most, a row is joined once at most. -/
theorem length_joinPairs_le_one (row : Row) :
    (joinPairs id kind columns [row] right).length ≤ 1 := by
  rw [joinPairs_eq_flatMap, List.flatMap_cons, List.flatMap_nil, List.append_nil]
  split
  · exact Nat.le_refl 1
  · rw [List.length_map]
    exact single row

/-- Where every row has one partner at most, the left rows that are joined are some of the left
rows. -/
theorem joinPairs_sublist (left : List Row) :
    ((joinPairs id kind columns left right).map (·.1)).Sublist left := by
  induction left with
  | nil => exact .slnil
  | cons row rest ih =>
    have first : ((joinPairs id kind columns [row] right).map (·.1)).Sublist [row] := by
      have ofRow : ∀ item ∈ (joinPairs id kind columns [row] right).map (·.1), item = row := by
        intro item member
        obtain ⟨_, paired, rfl⟩ := List.mem_map.mp member
        exact fst_of_mem_joinPairs paired
      rw [List.eq_replicate_of_mem ofRow, List.length_map]
      exact List.replicate_sublist_replicate row |>.mpr (length_joinPairs_le_one single row)
    rw [joinPairs_cons, List.map_append]
    exact first.append ih

end Joins

end TablePipeline

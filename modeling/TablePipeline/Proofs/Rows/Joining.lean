import Mathlib.Data.List.Basic
import Mathlib.Data.List.Induction
import TablePipeline.Rows.Join

/-! # Joining rows and keeping some of them

A condition that a joined row inherits from its left row can be tested before the join: a left row
that fails it takes all of its joined rows with it, those without a partner included.
-/

namespace TablePipeline

namespace Row

/-- The cell of a row that is made of items, one by one. -/
theorem cell_map {α : Type} {items : List α} {value : α → Cell} {position : Nat} {item : α}
    (here : items[position]? = some item) : cell (items.map value) position = value item := by
  rw [cell, List.getElem?_map, here]
  rfl

/-- The cell of a joined row at an entry of the left side is that of the left row. -/
theorem cell_joined_left {layout : List JoinColumn} {position index : Nat}
    (here : layout[position]? = some ⟨.left, index⟩) (left : Row) (partner : Option Row) :
    (left.joined layout partner).cell position = left.cell index :=
  cell_map here

end Row

/-- The items of the right side whose rows have the key of a row of the left side. -/
def joinPartners (cells : α → Row) (columns : List JoinKeyColumn) (right : List α) (row : Row) :
    List α :=
  match row.joinKey (columns.map fun column => (column.left, column.widened)) with
  | none => []
  | some key =>
    right.filter fun other =>
      match (cells other).joinKey (columns.map fun column => (column.right, column.widened)) with
      | none => false
      | some otherKey => otherKey.same key

section Index

variable {α : Type} {cells : α → Row} {columns : List JoinKeyColumn}

/-- Has an item a key that is the same as the one of an entry? -/
private def hasEntry (cells : α → Row) (columns : List JoinKeyColumn) (entry : Row) (item : α) :
    Bool :=
  match (cells item).joinKey (columns.map fun column => (column.right, column.widened)) with
  | none => false
  | some key => key.map Cell.canonical = entry

/-- What an index holds for some items of one key. -/
private def nonempty? (items : List α) : Option (List α) :=
  match items with
  | [] => none
  | _ :: _ => some items

private theorem getD_nonempty? (items : List α) : (nonempty? items).getD [] = items := by
  cases items <;> rfl

private theorem nonempty?_append_singleton (items : List α) (item : α) :
    nonempty? (items ++ [item]) = some (items ++ [item]) := by
  cases items <;> rfl

/-- An index holds the items of each key in their order, and nothing for a key without items. -/
private theorem find?_joinIndex (right : List α) : ∀ entry : Row,
    (joinIndex cells columns right).find? entry =
      nonempty? (right.filter (hasEntry cells columns entry)) := by
  induction right using List.reverseRecOn with
  | nil => exact fun _ => rfl
  | append_singleton right item ih =>
    intro entry
    rw [joinIndex, List.foldl_append, List.foldl_cons, List.foldl_nil, ← joinIndex,
      List.filter_append]
    cases isKey : (cells item).joinKey (columns.map fun column => (column.right, column.widened)) with
    | none =>
      have without : hasEntry cells columns entry item = false := by simp only [hasEntry, isKey]
      rw [List.filter_cons_of_neg (by rw [without]; exact Bool.false_ne_true), List.filter_nil,
        List.append_nil]
      exact ih entry
    | some key =>
      simp only [Dictionary.find?_insert, ih, getD_nonempty?]
      by_cases same : entry = key.map Cell.canonical
      · have has : hasEntry cells columns entry item = true := by simp [hasEntry, isKey, same]
        rw [if_pos same, List.filter_cons_of_pos has, List.filter_nil, nonempty?_append_singleton,
          ← same]
      · have without : hasEntry cells columns entry item = false := by
          simp [hasEntry, isKey, Ne.symm same]
        rw [if_neg same, List.filter_cons_of_neg (by rw [without]; exact Bool.false_ne_true),
          List.filter_nil, List.append_nil]

/-- The entry of a row holds its partners; there is none if it has no partners. -/
private theorem joinLookup?_joinIndex (right : List α) (row : Row) :
    joinLookup? (joinIndex cells columns right) columns row =
      nonempty? (joinPartners cells columns right row) := by
  rw [joinLookup?, joinPartners]
  cases row.joinKey (columns.map fun column => (column.left, column.widened)) with
  | none => rfl
  | some key => exact find?_joinIndex right _

/-- Items are joined with their partners, whether the partners come from an index or are looked for
among all items of the right side. -/
theorem joinPairs_eq_flatMap (kind : JoinKind) (left right : List α) :
    joinPairs cells kind columns left right = left.flatMap fun item =>
      match kind, joinPartners cells columns right (cells item) with
      | .left, [] => [(item, none)]
      | _, partners => partners.map fun partner => (item, some partner) := by
  simp only [joinPairs, joinLookup?_joinIndex]
  refine List.flatMap_congr fun item _ => ?_
  cases joinPartners cells columns right (cells item) with
  | nil => cases kind <;> rfl
  | cons => cases kind <;> rfl

end Index

section Pairs

variable {kind : JoinKind} {columns : List JoinKeyColumn} {right : List Row}

theorem joinPartners_sublist (row : Row) : (joinPartners id columns right row).Sublist right := by
  unfold joinPartners
  split
  · exact List.nil_sublist right
  · exact List.filter_sublist

/-- A partner of a row has the key of the row. -/
theorem same_joinKey_of_mem_joinPartners {row partner : Row}
    (member : partner ∈ joinPartners id columns right row) :
    ∃ sought found,
      row.joinKey (columns.map fun column => (column.left, column.widened)) = some sought ∧
      partner.joinKey (columns.map fun column => (column.right, column.widened)) = some found ∧
      found.same sought = true := by
  unfold joinPartners at member
  split at member
  · cases member
  · rename_i sought isSought
    have kept := (List.mem_filter.mp member).2
    split at kept
    · cases kept
    · rename_i found isFound
      exact ⟨sought, found, isSought, isFound, kept⟩

/-- Left rows are joined one by one. -/
theorem joinPairs_cons (row : Row) (rest : List Row) :
    joinPairs id kind columns (row :: rest) right =
      joinPairs id kind columns [row] right ++ joinPairs id kind columns rest right := by
  simp only [joinPairs_eq_flatMap, List.flatMap_cons, List.flatMap_nil, List.append_nil]

/-- A row is joined as the left one of its pairs. -/
theorem fst_of_mem_joinPairs {row item : Row} {partner : Option Row}
    (paired : (item, partner) ∈ joinPairs id kind columns [row] right) : item = row := by
  simp only [joinPairs_eq_flatMap, List.flatMap_cons, List.flatMap_nil, List.append_nil] at paired
  split at paired
  · simpa using congrArg Prod.fst (List.mem_singleton.mp paired)
  · obtain ⟨_, _, same⟩ := List.mem_map.mp paired
    exact (congrArg Prod.fst same).symm

end Pairs

section Rows

variable {kind : JoinKind} {columns : List JoinKeyColumn} {layout : List JoinColumn}

theorem joinRows_cons (row : Row) (rest right : List Row) :
    joinRows kind columns layout (row :: rest) right =
      joinRows kind columns layout [row] right ++ joinRows kind columns layout rest right := by
  rw [joinRows, joinPairs_cons, List.map_append, joinRows, joinRows]

theorem joinRows_eq_flatMap (left right : List Row) :
    joinRows kind columns layout left right =
      left.flatMap fun row => joinRows kind columns layout [row] right := by
  induction left with
  | nil => rfl
  | cons row rest ih => rw [joinRows_cons, List.flatMap_cons, ih]

/-- Keeping joined rows by a condition on their left rows is joining the left rows that are kept. -/
theorem filter_joinRows {keepJoined keep : Row → Bool}
    (inherited : ∀ row partner, keepJoined (row.joined layout partner) = keep row)
    (left right : List Row) :
    (joinRows kind columns layout left right).filter keepJoined =
      joinRows kind columns layout (left.filter keep) right := by
  induction left with
  | nil => rfl
  | cons row rest ih =>
    have together : ∀ joined ∈ joinRows kind columns layout [row] right,
        keepJoined joined = keep row := by
      intro joined member
      obtain ⟨⟨item, partner⟩, paired, rfl⟩ := List.mem_map.mp member
      rw [fst_of_mem_joinPairs paired, inherited]
    rw [joinRows_cons row rest, List.filter_append, ih, List.filter_cons]
    cases kept : keep row with
    | true =>
      rw [if_pos rfl, joinRows_cons row (rest.filter keep), List.filter_eq_self.mpr]
      intro joined member
      rw [together joined member, kept]
    | false =>
      rw [if_neg Bool.false_ne_true, List.filter_eq_nil_iff.mpr, List.nil_append]
      intro joined member
      rw [together joined member, kept]
      exact Bool.false_ne_true

end Rows

end TablePipeline

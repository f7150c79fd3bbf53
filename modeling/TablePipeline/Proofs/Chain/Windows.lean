import TablePipeline.Proofs.Chain.KeyPositions
import TablePipeline.Proofs.Chain.Ordering
import TablePipeline.Proofs.Chain.Reads
import TablePipeline.Proofs.Rows.Windows

/-! # The rows after a window function

A window function leaves the rows where they are, and all columns but the computed one. The computed
column is a new one at the end, or takes the place of the column that has its name. It may replace a
column by which the rows are parted or ordered: what the function looks at are the rows before it.
-/

namespace TablePipeline

/-- Do rows stay as they are, apart from one column, which is replaced or added? -/
structure Extends (before after : Schema) (computed : String) (rows results : List Row) : Prop where
  length : results.length = rows.length
  widths : ∀ result ∈ results, result.length = after.width
  names : after.names =
    if computed ∈ before.names then before.names else before.names ++ [computed]
  kept : ∀ {name : String} {position : Nat}, name ≠ computed →
    before.position? name = some position →
      after.position? name = some position ∧ after.column? name = before.column? name ∧
        ∀ place < rows.length,
          (rowAt results place).cell position = (rowAt rows place).cell position

namespace Schema

variable {schema after : Schema} {computed : String} {type : ValueType}

/-- The names after an assignment of one column. -/
theorem names_assign_singleton (assigned : schema.assign [type.column computed] = .ok after) :
    after.names =
      if computed ∈ schema.names then schema.names else schema.names ++ [computed] := by
  have isThere : (schema.position? computed).isSome ↔ computed ∈ schema.names := by
    simp [position?, names]
  rw [names_assign assigned, List.filter_singleton]
  change schema.names ++ List.map _ (bif (schema.position? computed).isNone then _ else _) = _
  split
  · rename_i known
    obtain ⟨position, placed⟩ := Option.isSome_iff_exists.mp (isThere.mpr known)
    rw [placed]
    exact List.append_nil _
  · rename_i unknown
    rw [Option.not_isSome_iff_eq_none.mp fun known => unknown (isThere.mp known)]
    rfl

/-- An assigned column is there. -/
theorem exists_position?_assign (assigned : schema.assign [type.column computed] = .ok after) :
    ∃ position, after.position? computed = some position := by
  have known : computed ∈ after.names := by
    rw [names_assign_singleton assigned]
    split <;> simp [*]
  obtain ⟨position, here⟩ := List.getElem?_of_mem known
  exact ⟨position, position?_of_getElem? (nodup_names_assign assigned) here⟩

/-- A column that was there stays where it is. -/
theorem position?_assign (assigned : schema.assign [type.column computed] = .ok after)
    {name : String} {position : Nat} (placed : schema.position? name = some position) :
    after.position? name = some position := by
  have here := getElem?_of_position? placed
  obtain ⟨inside, _⟩ := List.getElem?_eq_some_iff.mp here
  refine position?_of_getElem? (nodup_names_assign assigned) ?_
  rw [names_assign assigned, List.getElem?_append_left inside, here]

end Schema

/-- Rows with the values of a window function extend the rows before it, and the values stand in the
computed column. -/
theorem extends_of_windowItems {before after : Schema} {computed : String} {type : ValueType}
    (assigned : before.assign [type.column computed] = .ok after) {items : List (Option Nat)}
    (found : windowItems before after computed = .ok items) {rows : List Row} {values : List Cell}
    (lengths : values.length = rows.length) {position : Nat}
    (placed : after.position? computed = some position) :
    let results := (rows.zip values).map fun (row, value) =>
      items.map fun item => (item.map row.cell).getD value
    Extends before after computed rows results ∧
      ∀ {place : Nat} {value : Cell}, values[place]? = some value →
        (rowAt results place).cell position = value := by
  intro results
  have each := mapM_eq_ok.mp found
  have item {name : String} {place : Nat} (here : after.position? name = some place) :=
    exists_getElem?_of_forall₂ each (Schema.getElem?_of_position? here)
  have isResult {place : Nat} {row : Row} {value : Cell} (here : rows[place]? = some row)
      (there : values[place]? = some value) :
      rowAt results place = items.map fun item => (item.map row.cell).getD value := by
    have entry : (rows.zip values)[place]? = some (row, value) :=
      List.getElem?_zip_eq_some.mpr ⟨here, there⟩
    refine rowAt_of_getElem? ?_
    rw [List.getElem?_map, entry]
    rfl
  refine ⟨⟨?_, fun result member => ?_, Schema.names_assign_singleton assigned,
    fun {name source} other known => ?_⟩, fun {place value} there => ?_⟩
  · rw [List.length_map, List.length_zip, lengths, Nat.min_self]
  · obtain ⟨_, _, rfl⟩ := List.mem_map.mp member
    rw [List.length_map, ← each.length_eq]
    exact List.length_map _
  · have known' := Schema.position?_assign assigned known
    obtain ⟨entry, isItem, result⟩ := item known'
    simp only [if_neg other, bind_eq_ok, pure_eq_ok, mapError_eq_ok, Schema.resolve_eq_ok,
      known] at result
    obtain ⟨_, same, rfl⟩ := result
    cases same
    refine ⟨known', Schema.column?_assign assigned ?_, fun place inside => ?_⟩
    · rw [List.map_singleton, List.mem_singleton]
      exact other
    · have here := List.getElem?_eq_getElem inside
      rw [isResult here (List.getElem?_eq_getElem (lengths ▸ inside)), Row.cell_map isItem,
        rowAt_of_getElem? here]
      rfl
  · obtain ⟨entry, isItem, result⟩ := item placed
    rw [if_pos rfl, pure_eq_ok] at result
    obtain ⟨inside, _⟩ := List.getElem?_eq_some_iff.mp there
    have here := List.getElem?_eq_getElem (lengths ▸ inside : place < rows.length)
    rw [isResult here there, Row.cell_map isItem, ← result]
    rfl

namespace Verb

variable {before after : Signature} {added : Window} {rows : List Row}

/-- A window that is checked keeps the rows and all other columns. Inside each part the rows have numbers
from one in the order of the keys, where tied rows are in their own order, and the computed column has
the values that the function gives rows of these numbers. -/
theorem rows_of_window (applied : before.apply (.window added) = .ok after)
    (admitted : ∀ row ∈ rows, before.schema.Admits row) :
    ∃ partition keys function results position number,
      before.schema.positions .window added.partitionBy = .ok partition ∧
      before.schema.orderKeys added.orderBy = .ok keys ∧
      added.function.bind before.schema = .ok function ∧
      (window added).rows before after.schema rows = .ok results ∧
      Extends before.schema after.schema added.name rows results ∧
      after.schema.position? added.name = some position ∧
      ∃ groups, Partitions partition rows groups ∧ ∀ group ∈ groups,
        Numbers keys rows group number ∧ ∀ place ∈ group,
          function.Gives keys rows group number place ((rowAt results place).cell position) := by
  obtain ⟨_, _, type, typed, assigned⟩ := Signature.schema_of_window applied
  obtain ⟨partition, keys, function, items, partsFound, keysFound, bound, found, _⟩ :=
    exists_window applied
  have boundHere : (added.function.bind before.schema).mapError RunError.chain = .ok function :=
    mapError_eq_ok.mpr bound
  obtain ⟨position, placed⟩ := Schema.exists_position?_assign assigned
  have lengths : (function.column partition keys rows).length = rows.length := by
    rw [BoundWindow.column, List.length_map, List.length_range]
  obtain ⟨kept, computed⟩ := extends_of_windowItems assigned found lengths placed
  have comparable := Schema.comparable_of_orderKeys keysFound admitted
  refine ⟨partition, keys, function, _, position, BoundWindow.number partition keys rows, partsFound,
    keysFound, bound, ?_, kept, placed, _, Partition.partitions_ofRows partition rows,
    fun group isGroup => ?_⟩
  · rw [windowItems] at found
    simp only [Verb.rows, partsFound, keysFound, boundHere, found, ok_bind]
    rfl
  · obtain ⟨numbers, values⟩ := BoundWindow.gives_column comparable function isGroup
    refine ⟨numbers, fun place inGroup => ?_⟩
    obtain ⟨cell, stands, gives⟩ := values place inGroup
    rw [computed stands]
    exact gives

/-- The level before this one at a station, in place of the level. -/
def previousLevel : Window where
  name := "level"
  function := .lag (.column "level") 1
  partitionBy := ["station"]
  orderBy := [⟨"level", false, .last⟩]

/-- The levels of the north tie, and those of the other stations have none before them. -/
theorem rows_previousLevel :
    ∃ after, (Signature.ofSource "levels" levels).apply (.window previousLevel) = .ok after ∧
      (∀ row ∈ levelRows, levels.Admits row) ∧
      ∃ partition keys function results position number,
        levels.positions .window previousLevel.partitionBy = .ok partition ∧
        levels.orderKeys previousLevel.orderBy = .ok keys ∧
        previousLevel.function.bind levels = .ok function ∧
        (window previousLevel).rows (.ofSource "levels" levels) after.schema levelRows = .ok results ∧
        Extends levels after.schema previousLevel.name levelRows results ∧
        after.schema.position? previousLevel.name = some position ∧
        ∃ groups, Partitions partition levelRows groups ∧ ∀ group ∈ groups,
          Numbers keys levelRows group number ∧ ∀ place ∈ group,
            function.Gives keys levelRows group number place
              ((rowAt results place).cell position) := by
  obtain ⟨after, applied⟩ :
      ∃ after, (Signature.ofSource "levels" levels).apply (.window previousLevel) = .ok after :=
    ⟨_, rfl⟩
  have admitted : ∀ row ∈ levelRows, levels.Admits row := by
    simp [levelRows, levels, Schema.Admits, Column.Admits]
  exact ⟨after, applied, admitted, rows_of_window applied admitted⟩

end Verb

end TablePipeline

import TablePipeline.Proofs.Chain.Totals
import TablePipeline.Proofs.Rows.Partition

/-! # One row for each key

A summary groups rows by the cells of its key columns and makes one row of each group, in the order in
which the keys appear first. No row is left out and none is taken twice, so what is counted in the groups
adds up to the number of rows. Without keys all rows are one group, even where there are none.
-/

namespace TablePipeline

/-- Is this a summary of rows: one row for each key, in the order in which the keys appear, and all rows
counted? -/
structure Summarises (keys : List Nat) (aggregates : List (String × Aggregate))
    (rows results : List Row) : Prop where
  /-- A row of the summary begins with the key of the first row of its group. -/
  groups : keys ≠ [] → List.Forall₂ (fun group result => ∃ first row, group.head? = some first ∧
    rows[first]? = some row ∧ result.pick (List.range keys.length) = row.pick keys)
    (Partition.ofRows keys rows) results
  single : keys = [] → results.length = 1
  distinct : results.Pairwise fun result other =>
    ¬ Row.Agree (List.range keys.length) result other
  covered : ∀ row ∈ rows, ∃ result ∈ results, ∀ {place column : Nat}, keys[place]? = some column →
    (result.cell place).Alike (row.cell column)
  counts : ∀ {place : Nat} {name : String}, aggregates[place]? = some (name, ⟨.countRows, none⟩) →
    ∃ numbers : List Int64,
      List.Forall₂ (fun result number => result.cell (keys.length + place) = .int number) results
        numbers ∧
      ((rows.length : Int) ≤ Number.maxInt → total numbers = rows.length)

/-! ## The groups of a summary -/

section Groups

variable {keys : List Nat} {rows : List Row}

/-- Without keys all rows are one group. -/
theorem summaryGroups_nil (rows : List Row) : summaryGroups [] rows = [rows] := by
  cases rows with
  | nil => simp [summaryGroups, groupsOf]
  | cons row rest =>
    have all : rest.filter (fun other => (other.pick []).same (row.pick [])) = rest :=
      List.filter_eq_self.mpr fun _ _ => rfl
    have none : rest.filter (fun other => !(other.pick []).same (row.pick [])) = [] :=
      List.filter_eq_nil_iff.mpr fun _ _ => by simp [Row.same, Row.pick]
    have groups : groupsOf (fun row : Row => row.pick []) (row :: rest) = [row :: rest] := by
      rw [groupsOf, all, none, groupsOf]
    simp only [summaryGroups, groups]

/-- With keys, rows are grouped by them. -/
theorem summaryGroups_of_ne_nil (grouped : keys ≠ []) (rows : List Row) :
    summaryGroups keys rows = groupsOf (fun row : Row => row.pick keys) rows := by
  cases keys with
  | nil => exact absurd rfl grouped
  | cons => rfl

/-- The groups of a summary together hold all rows. -/
theorem flatten_summaryGroups_perm (keys : List Nat) (rows : List Row) :
    (summaryGroups keys rows).flatten.Perm rows := by
  by_cases grouped : keys = []
  · rw [grouped, summaryGroups_nil, List.flatten_singleton]
  · rw [summaryGroups_of_ne_nil grouped]
    exact flatten_groupsOf_perm _ _

/-- The groups of rows are those of their places. -/
theorem forall₂_ofRows (keys : List Nat) (rows : List Row) :
    List.Forall₂ (fun places group => ∃ first row, places.head? = some first ∧
      rows[first]? = some row ∧ group.headD [] = row)
      (Partition.ofRows keys rows) (groupsOf (fun row : Row => row.pick keys) rows) := by
  have groups : groupsOf (fun row : Row => row.pick keys) (rows.zipIdx.map (·.1)) =
      (groupsOf (Partition.numberedKey keys) rows.zipIdx).map (List.map (·.1)) :=
    groupsOf_map (·.1) rows.zipIdx
  rw [List.zipIdx_map_fst] at groups
  rw [groups, Partition.ofRows_eq_groupsOf, List.forall₂_map_left_iff, List.forall₂_map_right_iff,
    List.forall₂_same]
  intro group isGroup
  obtain ⟨first, others, rfl⟩ := List.exists_cons_of_ne_nil (ne_nil_of_mem_groupsOf isGroup)
  have isFirst := mem_of_mem_groupsOf isGroup (List.mem_cons_self ..)
  exact ⟨_, _, rfl, List.mem_zipIdx_iff_getElem?.mp isFirst, rfl⟩

/-- A row is in the group that begins with a row of its key. -/
theorem exists_summaryGroup (keys : List Nat) {row : Row} (member : row ∈ rows) :
    ∃ group ∈ summaryGroups keys rows, Row.Agree keys (group.headD []) row := by
  obtain ⟨group, isGroup, inGroup⟩ :=
    List.mem_flatten.mp ((flatten_summaryGroups_perm keys rows).symm.subset member)
  refine ⟨group, isGroup, ?_⟩
  by_cases grouped : keys = []
  · rw [grouped]
    exact fun _ member => nomatch member
  · rw [summaryGroups_of_ne_nil grouped] at isGroup
    obtain ⟨first, others, rfl⟩ := List.exists_cons_of_ne_nil (ne_nil_of_mem_groupsOf isGroup)
    have isFirst : first ∈ first :: others := List.mem_cons_self ..
    rw [eq_filter_of_mem_groupsOf isGroup inGroup] at isFirst
    exact Row.same_pick_iff.mp (List.mem_filter.mp isFirst).2

end Groups

/-- The sizes of some lists add up to the size of all of them, if 64 bits hold it. -/
theorem total_lengths {α : Type} (groups : List (List α))
    (fits : (groups.flatten.length : Int) ≤ Number.maxInt) :
    total (groups.map fun group => Int64.ofNat group.length) = groups.flatten.length := by
  induction groups with
  | nil => rfl
  | cons group rest ih =>
    rw [List.flatten_cons, List.length_append] at fits ⊢
    simp only [Number.maxInt] at fits ih
    rw [List.map_cons, total_cons, ih (by omega), Int64.toInt_ofNat_of_lt (by omega)]
    omega

/-! ## The rows of a summary -/

section Summary

variable {schema : Schema} {aggregates : List (String × Aggregate)} {bound : List BoundAggregate}
  {keys : List Nat}

/-- A row of a summary has the key of every row that agrees with the first of its group. -/
theorem alike_of_pick {result first row : Row}
    (front : result.pick (List.range keys.length) = first.pick keys) (agree : Row.Agree keys first row)
    {place column : Nat} (isKey : keys[place]? = some column) :
    (result.cell place).Alike (row.cell column) := by
  obtain ⟨inside, rfl⟩ := List.getElem?_eq_some_iff.mp isKey
  have cells := congrArg (·[place]?) front
  simp only [Row.pick, List.getElem?_map, List.getElem?_range inside, List.getElem?_eq_getElem inside,
    Option.map_some, Option.some.injEq] at cells
  rw [cells]
  exact agree _ (List.getElem_mem inside)

/-- A group is counted at the place of a count of rows. -/
theorem cell_of_countRows (binds : List.Forall₂ (BoundAggregate.Binds schema) aggregates bound)
    {group : List Row} {row : Row} (computed : summaryRow keys bound group = .ok row) {place : Nat}
    {name : String} (here : aggregates[place]? = some (name, ⟨.countRows, none⟩)) :
    row.cell (keys.length + place) = .int (Int64.ofNat group.length) := by
  obtain ⟨aggregate, written, applied⟩ := applied_of_summaryRow binds computed here
  have isBare : none = aggregate.argument := Except.ok.inj written.argument
  rw [← isBare] at applied
  exact (Option.some.inj applied).symm

/-- The rows of the groups are a summary. -/
theorem summarises_of_summaryRow
    (binds : List.Forall₂ (BoundAggregate.Binds schema) aggregates bound) {rows results : List Row}
    (computed : (summaryGroups keys rows).mapM (summaryRow keys bound) = .ok results) :
    Summarises keys aggregates rows results := by
  have each := mapM_eq_ok.mp computed
  have fronts : List.Forall₂ (fun group result => result.pick (List.range keys.length) =
      (group.headD []).pick keys) (summaryGroups keys rows) results :=
    each.imp fun _ _ => pick_summaryRow
  have single (ungrouped : keys = []) : results.length = 1 := by
    rw [← each.length_eq, ungrouped, summaryGroups_nil]
    rfl
  refine ⟨fun grouped => ?_, single, ?_, fun row member => ?_, fun {place name} here => ?_⟩
  · rw [summaryGroups_of_ne_nil grouped] at fronts
    refine forall₂_trans (fun head front => ?_) (forall₂_ofRows keys rows) fronts
    obtain ⟨first, row, isFirst, isRow, isHead⟩ := head
    exact ⟨first, row, isFirst, isRow, isHead ▸ front⟩
  · by_cases grouped : keys = []
    · obtain ⟨result, rfl⟩ := List.length_eq_one_iff.mp (single grouped)
      exact List.pairwise_singleton ..
    · rw [summaryGroups_of_ne_nil grouped] at fronts
      have distinct := (distinctOn_heads keys rows).carry (List.forall₂_map_left_iff.mpr fronts)
      refine List.Pairwise.imp (fun differ agree => ?_) distinct
      rw [Row.same_pick_iff.mpr agree] at differ
      cases differ
  · obtain ⟨group, isGroup, agree⟩ := exists_summaryGroup keys member
    obtain ⟨result, isResult, front⟩ := exists_of_mem_left fronts isGroup
    exact ⟨result, isResult, fun isKey => alike_of_pick front agree isKey⟩
  · have counted := each.imp fun _ _ computed => cell_of_countRows binds computed here
    refine ⟨(summaryGroups keys rows).map fun group => Int64.ofNat group.length,
      List.forall₂_map_right_iff.mpr counted.flip, fun fits => ?_⟩
    have length := (flatten_summaryGroups_perm keys rows).length_eq
    rw [← length] at fits ⊢
    exact total_lengths _ fits

end Summary

namespace Verb

variable {before after : Signature} {aggregates : List (String × Aggregate)}

/-- A summary that is checked is computed group by group. -/
theorem exists_binds_of_summarise (applied : before.apply (.summarise aggregates) = .ok after) :
    ∃ keys bound, before.schema.positions .summarise before.groups = .ok keys ∧
      List.Forall₂ (BoundAggregate.Binds before.schema) aggregates bound ∧
      ∀ rows, (summarise aggregates).rows before after.schema rows =
        (summaryGroups keys rows).mapM (summaryRow keys bound) := by
  have summarised := Signature.schema_of_summarise applied
  obtain ⟨keyColumns, columns, found, typed, made⟩ := Signature.columns_of_summarise summarised
  obtain ⟨keys, placed, _⟩ := Schema.positions_of_known .summarise
    fun _ => Schema.known_of_resolveColumn found
  have lengths : keyColumns.length = keys.length := by
    rw [← (mapM_eq_ok.mp found).length_eq, ← (mapM_eq_ok.mp (mapError_eq_ok.mp placed)).length_eq]
  obtain ⟨bound, resolved, _⟩ := bindAggregates_of_typed after.schema keys.length typed
  refine ⟨keys, bound, placed, binds_of_bindAggregates typed made (lengths ▸ resolved), fun rows => ?_⟩
  rw [Verb.rows, placed, ok_bind, resolved, ok_bind]

/-- The groups of rows by any columns, as they are computed and as one pass makes them, part the rows by
their keys. A summary that is checked has one row for each key of the rows, or a sum of integers
overflows. -/
theorem rows_of_summarise (applied : before.apply (.summarise aggregates) = .ok after)
    (rows : List Row) :
    (∀ columns, Partitions columns rows (Partition.ofRows columns rows) ∧
        Partition.ofRows columns rows =
          (groupsOf (fun (row, _) => row.pick columns) rows.zipIdx).map (·.map (·.2))) ∧
      ∃ keys, before.schema.positions .summarise before.groups = .ok keys ∧
        ((∃ results, (summarise aggregates).rows before after.schema rows = .ok results ∧
            Summarises keys aggregates rows results) ∨
          ∃ column, (summarise aggregates).rows before after.schema rows =
              .error (.integerOverflow column) ∧
            ∃ group ∈ summaryGroups keys rows, Overflows before.schema aggregates group column) := by
  refine ⟨fun columns => ⟨Partition.partitions_ofRows columns rows,
    Partition.ofRows_eq_groupsOf columns rows⟩, ?_⟩
  obtain ⟨keys, bound, placed, binds, done⟩ := exists_binds_of_summarise applied
  refine ⟨keys, placed, ?_⟩
  rw [done]
  cases outcome : (summaryGroups keys rows).mapM (summaryRow keys bound) with
  | ok results => exact .inl ⟨results, rfl, summarises_of_summaryRow binds outcome⟩
  | error error =>
    obtain ⟨group, isGroup, failed⟩ := exists_of_mapM_eq_error outcome
    obtain ⟨column, rfl, overflows⟩ := overflows_of_summaryRow binds failed
    exact .inr ⟨column, rfl, group, isGroup, overflows⟩

/-- Marks of pupils, grouped by pupil and mark. -/
def marks : Signature :=
  { Signature.ofSource "marks" ⟨[⟨"pupil", .text, true⟩, ⟨"mark", .float, true⟩], [], []⟩ with
    groups := ["pupil", "mark"] }

/-- How often a pupil has a mark. -/
def tally : List (String × Aggregate) :=
  [("times", ⟨.countRows, none⟩)]

/-- Marks that are one zero and the other, a mark that is no number, and marks that are not known. -/
def markRows : List Row :=
  [[.text "ann", .float 0.0], [.null, .null], [.text "ann", .float .nan], [.text "ann", .float (-0.0)],
    [.null, .null], [.text "ann", .float .nan]]

/-- There is one row for each of the three marks, and their numbers add up to six. -/
theorem rows_tally :
    ∃ after, marks.apply (.summarise tally) = .ok after ∧
      (∀ columns, Partitions columns markRows (Partition.ofRows columns markRows) ∧
        Partition.ofRows columns markRows =
          (groupsOf (fun (row, _) => row.pick columns) markRows.zipIdx).map (·.map (·.2))) ∧
      ∃ keys, marks.schema.positions .summarise marks.groups = .ok keys ∧
        ((∃ results, (summarise tally).rows marks after.schema markRows = .ok results ∧
            Summarises keys tally markRows results) ∨
          ∃ column, (summarise tally).rows marks after.schema markRows =
              .error (.integerOverflow column) ∧
            ∃ group ∈ summaryGroups keys markRows, Overflows marks.schema tally group column) := by
  obtain ⟨after, applied⟩ : ∃ after, marks.apply (.summarise tally) = .ok after := ⟨_, rfl⟩
  exact ⟨after, applied, rows_of_summarise applied markRows⟩

end Verb

end TablePipeline

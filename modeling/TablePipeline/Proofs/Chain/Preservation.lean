import TablePipeline.Proofs.Chain.Reads
import TablePipeline.Proofs.Rows.Soundness

/-! # Every step keeps to its schema

If the rows before a step are such as the schema before it admits, and the step goes through and its
expressions are evaluated exactly, then the rows after it are such as the schema after it admits. In
particular each of them has one cell for every column.
-/

namespace TablePipeline

/-- Does no integer overflow while an operation computes new cells from rows? Nothing is asked of the
condition of a filter: it decides which rows are kept, and its values are not. -/
def Verb.Exact (schema : Schema) (rows : List Row) : Verb → Prop
  | mutate assignments =>
    ∀ assigned ∈ assignments, ∀ row ∈ rows, assigned.2.ExactIn schema row
  | summarise aggregates =>
    ∀ assigned ∈ aggregates, ∀ argument ∈ assigned.2.argument,
      ∀ row ∈ rows, argument.ExactIn schema row
  | window added =>
    ∀ partition keys function, schema.positions .window added.partitionBy = .ok partition →
      schema.orderKeys added.orderBy = .ok keys → added.function.bind schema = .ok function →
      ∀ part ∈ BoundWindow.parts partition keys rows, function.Exact (part.map (·.1))
  | select _ | filter _ | groupBy _ | orderBy _ | rename _ => True

namespace Schema

variable {schema after : Schema} {row : Row}

/-- The columns of a selection are the named ones. -/
theorem columns_of_select {names : List String} (selected : schema.select names = .ok after) :
    names.mapM (schema.resolveColumn .select) = .ok after.columns := by
  simp only [select, bind_eq_ok, pure_eq_ok] at selected
  obtain ⟨columns, known, result, made, rfl⟩ := selected
  rw [retainKeys, columns_of_schemaOf made, known]

/-- Picked cells are such as the picked columns admit. -/
theorem Admits.pick (admitted : schema.Admits row) {clause clause' : Clause} {names : List String}
    {columns : List Column} {positions : List Nat}
    (known : names.mapM (schema.resolveColumn clause) = .ok columns)
    (placed : schema.positions clause' names = .ok positions) :
    List.Forall₂ Column.Admits columns (row.pick positions) := by
  rw [Schema.positions, mapError_eq_ok, mapM_eq_ok] at placed
  rw [mapM_eq_ok] at known
  induction known generalizing positions with
  | nil =>
    cases placed
    exact .nil
  | cons first _ ih =>
    obtain ⟨position, others, here, rest, rfl⟩ := List.forall₂_cons_left_iff.mp placed
    rw [resolveColumn_eq_ok, column?_eq_getElem? (resolve_eq_ok.mp here)] at first
    exact .cons (admitted.cell first) (ih rest)

/-- The row after an assignment is such as its schema admits. -/
theorem Admits.assigned (admitted : schema.Admits row) {assignments : List (String × Expr String)}
    {columns : List Column} {bound : List (String × Expr Nat)} {items : List (Expr Nat)}
    (typed : Signature.assignedColumns schema assignments = .ok columns)
    (resolved : bindAssignments schema assignments = .ok bound)
    (assigned : schema.assign columns = .ok after)
    (found : assignedItems schema after bound = .ok items)
    (exact : ∀ assigned ∈ assignments, assigned.2.ExactIn schema row) :
    after.Admits (items.map (·.eval row)) := by
  rw [assignedItems, mapM_eq_ok, Schema.names, List.forall₂_map_left_iff] at found
  refine List.forall₂_map_right_iff.mpr (forall₂_of_mem found fun column isColumn item result => ?_)
  rcases Schema.mem_columns_assign assigned isColumn with isAssigned | ⟨notAssigned, known⟩
  · rcases lookup_assigned typed resolved column.name with
      ⟨absent, _⟩ | ⟨written, isWritten, type, expr, typed, bound, same, present⟩
    · rw [isAssigned] at absent
      cases absent
    · simp only [present, pure_eq_ok] at result
      rw [isAssigned, Option.some.injEq] at same
      rw [← result, same]
      exact written.2.admits_eval admitted typed bound (exact written isWritten expr bound)
  · rcases lookup_assigned typed resolved column.name with
      ⟨_, absent⟩ | ⟨_, _, _, _, _, _, present, _⟩
    · simp only [absent, bind_eq_ok, pure_eq_ok, mapError_eq_ok, resolve_eq_ok] at result
      obtain ⟨position, placed, rfl⟩ := result
      rw [column?_eq_getElem? placed] at known
      exact admitted.cell known
    · rw [notAssigned] at present
      cases present

/-- The row after a window function is such as its schema admits. -/
theorem Admits.windowed (admitted : schema.Admits row) {name : String} {type : ValueType}
    {items : List (Option Nat)} {value : Cell}
    (assigned : schema.assign [type.column name] = .ok after)
    (found : windowItems schema after name = .ok items) (fits : type.Admits value) :
    after.Admits (items.map fun item => (item.map row.cell).getD value) := by
  rw [windowItems, mapM_eq_ok, Schema.names, List.forall₂_map_left_iff] at found
  refine List.forall₂_map_right_iff.mpr (forall₂_of_mem found fun column isColumn item result => ?_)
  split at result
  · rename_i same
    cases result
    rcases Schema.mem_columns_assign assigned isColumn with isComputed | ⟨notComputed, _⟩
    · have isComputed := List.mem_singleton.mp (List.mem_of_find?_eq_some isComputed)
      rw [isComputed]
      exact fits
    · simp [same, ValueType.column] at notComputed
  · rename_i other
    simp only [bind_eq_ok, pure_eq_ok, mapError_eq_ok, resolve_eq_ok] at result
    obtain ⟨position, placed, rfl⟩ := result
    rcases Schema.mem_columns_assign assigned isColumn with isComputed | ⟨_, known⟩
    · have isComputed := List.mem_singleton.mp (List.mem_of_find?_eq_some isComputed)
      exact absurd (congrArg Column.name isComputed) other
    · rw [column?_eq_getElem? placed] at known
      exact admitted.cell known

end Schema

/-- The values of a group are such as the columns of the aggregates admit. -/
private theorem admits_values {before : Schema} {aggregates : List (String × Aggregate)}
    {columns : List Column} {group : List Row} (admitted : ∀ row ∈ group, before.Admits row)
    (exact : ∀ assigned ∈ aggregates, ∀ argument ∈ assigned.2.argument, ∀ row ∈ group,
      argument.ExactIn before row)
    (typed : List.Forall₂ (fun assigned column => ∃ type : ValueType,
      assigned.2.infer before = .ok type ∧ type.column assigned.1 = column) aggregates columns)
    {bound : List BoundAggregate}
    (binds : List.Forall₂ (BoundAggregate.Binds before) aggregates bound) {values : List Cell}
    (computed : List.Forall₂ (fun aggregate value =>
      aggregate.function.apply? aggregate.type aggregate.argument group = some value)
      bound values) :
    List.Forall₂ Column.Admits columns values := by
  induction typed generalizing bound values with
  | nil =>
    cases binds
    cases computed
    exact .nil
  | @cons assigned column rest columns typed _ ih =>
    obtain ⟨aggregate, bound, here, others, rfl⟩ := List.forall₂_cons_left_iff.mp binds
    obtain ⟨value, values, applied, restComputed, rfl⟩ := List.forall₂_cons_left_iff.mp computed
    obtain ⟨type, typed, rfl⟩ := typed
    obtain ⟨known, sameTyped, sameType⟩ := here.type
    rw [typed, Except.ok.injEq] at sameTyped
    rw [here.function, sameType, ← sameTyped] at applied
    exact .cons
      (Aggregate.admits_apply? admitted typed here.argument (exact assigned (List.mem_cons_self ..))
        applied)
      (ih (fun other member => exact other (List.mem_cons_of_mem _ member)) others restComputed)

/-- The row of a group is its key with the values of the aggregates behind it. -/
theorem summaryRow_eq_ok {keys : List Nat} {bound : List BoundAggregate} {group : List Row}
    {row : Row} : summaryRow keys bound group = .ok row ↔
      ∃ values, List.Forall₂ (fun aggregate value =>
          aggregate.function.apply? aggregate.type aggregate.argument group = some value)
        bound values ∧ row = (group.headD []).pick keys ++ values := by
  simp only [summaryRow, bind_eq_ok, mapM_eq_ok, pure_eq_ok]
  constructor
  · rintro ⟨values, computed, rfl⟩
    refine ⟨values, computed.imp fun aggregate value given => ?_, rfl⟩
    split at given
    · rename_i applied
      cases given
      exact applied
    · cases given
  · rintro ⟨values, applied, rfl⟩
    exact ⟨values, applied.imp fun aggregate value given => by rw [given], rfl⟩

/-- The row of a group is such as the schema of the summary admits. -/
theorem admits_summaryRow {before : Signature} {after : Schema}
    {aggregates : List (String × Aggregate)} (summarised : before.summarise aggregates = .ok after)
    {keys : List Nat} (keysFound : before.schema.positions .summarise before.groups = .ok keys)
    {bound : List BoundAggregate}
    (resolved : bindAggregates before.schema after keys.length aggregates = .ok bound)
    {group : List Row} (admitted : ∀ row ∈ group, before.schema.Admits row)
    (nonempty : group ≠ [] ∨ keys = [])
    (exact : ∀ assigned ∈ aggregates, ∀ argument ∈ assigned.2.argument, ∀ row ∈ group,
      argument.ExactIn before.schema row)
    {result : Row} (computed : summaryRow keys bound group = .ok result) :
    after.Admits result := by
  obtain ⟨keyColumns, columns, known, typed, made⟩ := Signature.columns_of_summarise summarised
  have sameLength : keyColumns.length = keys.length := by
    rw [← (mapM_eq_ok.mp known).length_eq, ← (mapM_eq_ok.mp (mapError_eq_ok.mp keysFound)).length_eq]
  rw [← sameLength] at resolved
  obtain ⟨values, applied, rfl⟩ := summaryRow_eq_ok.mp computed
  have fits : List.Forall₂ Column.Admits columns values :=
    admits_values admitted exact typed (binds_of_bindAggregates typed made resolved) applied
  rw [Schema.Admits, made]
  refine List.rel_append ?_ fits
  cases group with
  | nil =>
    have noKeys : keys = [] := nonempty.resolve_left fun isNil => isNil rfl
    subst noKeys
    rw [List.length_eq_zero_iff.mp sameLength]
    exact .nil
  | cons row rest => exact (admitted row (List.mem_cons_self ..)).pick known keysFound

/-- A group that is summarised has rows of before, and it has some unless there are no keys. -/
theorem mem_summaryGroups {keys : List Nat} {rows group : List Row}
    (member : group ∈ summaryGroups keys rows) :
    (∀ row ∈ group, row ∈ rows) ∧ (group ≠ [] ∨ keys = []) := by
  unfold summaryGroups at member
  split at member
  · rw [List.mem_singleton.mp member]
    exact ⟨fun _ member => (nomatch member), .inr rfl⟩
  · exact ⟨fun _ => mem_of_mem_groupsOf member, .inl (ne_nil_of_mem_groupsOf member)⟩

namespace Verb

variable {before after : Signature} {verb : Verb}

/-- The rows after a step that goes through are such as the schema after it admits. -/
theorem admits_rows (applied : before.apply verb = .ok after) {rows result : List Row}
    (admitted : ∀ row ∈ rows, before.schema.Admits row)
    (computed : verb.rows before after.schema rows = .ok result)
    (exact : verb.Exact before.schema rows) : ∀ row ∈ result, after.schema.Admits row := by
  cases verb with
  | groupBy columns =>
    cases computed
    rwa [Signature.schema_of_groupBy applied]
  | rename name =>
    cases computed
    rwa [Signature.schema_of_rename applied]
  | select columns =>
    simp only [Verb.rows, bind_eq_ok, pure_eq_ok] at computed
    obtain ⟨positions, placed, rfl⟩ := computed
    intro result member
    obtain ⟨row, isRow, rfl⟩ := List.mem_map.mp member
    exact (admitted row isRow).pick (Schema.columns_of_select (Signature.schema_of_select applied)) placed
  | mutate assignments =>
    obtain ⟨_, _, columns, typed, schema, assigned, rfl⟩ := Signature.apply_mutate.mp applied
    simp only [Verb.rows, bind_eq_ok, pure_eq_ok] at computed
    obtain ⟨bound, resolved, items, found, rfl⟩ := computed
    intro result member
    obtain ⟨row, isRow, rfl⟩ := List.mem_map.mp member
    exact (admitted row isRow).assigned typed resolved assigned found fun written isWritten =>
      exact written isWritten row isRow
  | filter predicate =>
    obtain ⟨_, _, rfl⟩ := Signature.apply_filter.mp applied
    simp only [Verb.rows, bind_eq_ok, pure_eq_ok] at computed
    obtain ⟨_, _, rfl⟩ := computed
    exact fun row member => admitted row (List.mem_filter.mp member).1
  | summarise aggregates =>
    simp only [Verb.rows, bind_eq_ok] at computed
    obtain ⟨keys, keysFound, bound, resolved, computed⟩ := computed
    intro result member
    obtain ⟨group, isGroup, computed⟩ := exists_of_mem_right (mapM_eq_ok.mp computed) member
    obtain ⟨within, nonempty⟩ := mem_summaryGroups isGroup
    exact admits_summaryRow (Signature.schema_of_summarise applied) keysFound resolved
      (fun row isRow => admitted row (within row isRow)) nonempty
      (fun assigned isAssigned argument isArgument row isRow =>
        exact assigned isAssigned argument isArgument row (within row isRow)) computed
  | orderBy keys =>
    obtain ⟨_, _, _, rfl⟩ := Signature.apply_orderBy.mp applied
    simp only [Verb.rows, bind_eq_ok, pure_eq_ok] at computed
    obtain ⟨_, _, rfl⟩ := computed
    exact fun row member => admitted row ((List.mergeSort_perm rows _).subset member)
  | window added =>
    obtain ⟨_, _, type, typed, assigned⟩ := Signature.schema_of_window applied
    simp only [Verb.rows, bind_eq_ok, pure_eq_ok, mapError_eq_ok] at computed
    obtain ⟨partition, partsFound, keys, keysFound, function, bound, items, found, rfl⟩ := computed
    intro result member
    obtain ⟨⟨row, value⟩, paired, rfl⟩ := List.mem_map.mp member
    obtain ⟨isRow, isValue⟩ := List.of_mem_zip paired
    exact (admitted row isRow).windowed assigned found (BoundWindow.admits_column admitted typed bound
      (exact partition keys function partsFound keysFound bound) isValue)

end Verb

end TablePipeline

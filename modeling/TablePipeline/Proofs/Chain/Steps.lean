import TablePipeline.Chain.Run
import TablePipeline.Proofs.Chain.Names
import TablePipeline.Proofs.Dictionary

/-! # What a step asks for

A chain can be built when every step fits the signature before it. The steps that a filter changes
places with are taken apart here: what each of them asks for, and the signature that it leaves.
-/

namespace TablePipeline

namespace Signature

variable {before after : Signature}

/-- A filter asks for a condition, and changes nothing that is known. -/
theorem apply_filter {predicate : Expr String} :
    before.apply (.filter predicate) = .ok after ↔
      before.groups = [] ∧
        (∃ value, predicate.infer before.schema .filter = .ok value ∧ value.type = .bool) ∧
        after = before := by
  have expected {value result : ValueType} :
      value.expect predicate.text .bool = .ok result ↔ value.type = .bool ∧ value = result := by
    unfold ValueType.expect
    split <;> simp [*]
  simp only [apply, throw_bind, guard_eq_ok, bind_eq_ok, pure_eq_ok, expected]
  constructor
  · rintro ⟨ungrouped, value, typed, _, ⟨condition, _⟩, rfl⟩
    have ungrouped : before.groups = [] := by simpa [Verb.followsGroups] using ungrouped
    exact ⟨ungrouped, ⟨value, typed, condition⟩, by rw [← ungrouped]⟩
  · rintro ⟨ungrouped, ⟨value, typed, condition⟩, rfl⟩
    exact ⟨by simp [ungrouped], value, typed, value, ⟨condition, rfl⟩, by rw [← ungrouped]⟩

/-- An ordering asks for its keys, and changes nothing that is known. -/
theorem apply_orderBy {keys : List OrderKey} :
    before.apply (.orderBy keys) = .ok after ↔
      before.groups = [] ∧ keys ≠ [] ∧
        (∃ positions, keys.mapM (fun key => before.schema.resolve .orderBy key.column) =
          .ok positions) ∧
        after = before := by
  simp only [apply, throw_bind, guard_eq_ok, bind_eq_ok, pure_eq_ok]
  constructor
  · rintro ⟨ungrouped, nonempty, positions, resolved, rfl⟩
    have ungrouped : before.groups = [] := by simpa [Verb.followsGroups] using ungrouped
    exact ⟨ungrouped, by simpa using nonempty, ⟨positions, resolved⟩, by rw [← ungrouped]⟩
  · rintro ⟨ungrouped, nonempty, ⟨positions, resolved⟩, rfl⟩
    exact ⟨by simp [ungrouped], by simpa using nonempty, positions, resolved, by rw [← ungrouped]⟩

/-- An assignment changes the schema alone. -/
theorem apply_mutate {assignments : List (String × Expr String)} :
    before.apply (.mutate assignments) = .ok after ↔
      before.groups = [] ∧ (∃ checked, requireDistinct (assignments.map (·.1)) = .ok checked) ∧
        ∃ columns, assignedColumns before.schema assignments = .ok columns ∧
          ∃ schema, before.schema.assign columns = .ok schema ∧
            after = { before with schema } := by
  simp only [apply, throw_bind, guard_eq_ok, bind_eq_ok, pure_eq_ok]
  constructor
  · rintro ⟨ungrouped, checked, distinct, columns, typed, schema, assigned, rfl⟩
    have ungrouped : before.groups = [] := by simpa [Verb.followsGroups] using ungrouped
    exact ⟨ungrouped, ⟨checked, distinct⟩, columns, typed, schema, assigned, by rw [← ungrouped]⟩
  · rintro ⟨ungrouped, ⟨checked, distinct⟩, columns, typed, schema, assigned, rfl⟩
    exact ⟨by simp [ungrouped], checked, distinct, columns, typed, schema, assigned,
      by rw [← ungrouped]⟩

/-- The assigned columns carry the names that are assigned. -/
theorem names_of_assignedColumns {schema : Schema} {assignments : List (String × Expr String)}
    {columns : List Column} (typed : assignedColumns schema assignments = .ok columns) :
    columns.map (·.name) = assignments.map (·.1) := by
  rw [assignedColumns, mapM_eq_ok] at typed
  induction typed with
  | nil => rfl
  | cons first _ ih =>
    simp only [bind_eq_ok, pure_eq_ok] at first
    obtain ⟨_, _, rfl⟩ := first
    rw [List.map_cons, List.map_cons, ih]
    rfl

/-- A selection asks for a schema of its columns. -/
theorem schema_of_select {columns : List String}
    (applied : before.apply (.select columns) = .ok after) :
    before.schema.select columns = .ok after.schema := by
  simp only [apply, throw_bind, guard_eq_ok, bind_eq_ok, pure_eq_ok] at applied
  obtain ⟨_, _, _, _, schema, selected, rfl⟩ := applied
  exact selected

/-- A summary asks for a schema of its groups and its values. -/
theorem schema_of_summarise {aggregates : List (String × Aggregate)}
    (applied : before.apply (.summarise aggregates) = .ok after) :
    before.summarise aggregates = .ok after.schema := by
  simp only [apply, throw_bind, guard_eq_ok, bind_eq_ok, pure_eq_ok] at applied
  obtain ⟨_, schema, summarised, rfl⟩ := applied
  exact summarised

/-- The columns of a summary are its groups and then its values. -/
theorem columns_of_summarise {aggregates : List (String × Aggregate)} {schema : Schema}
    (summarised : before.summarise aggregates = .ok schema) :
    ∃ keys values, before.groups.mapM (before.schema.resolveColumn .summarise) = .ok keys ∧
      List.Forall₂ (fun assigned column => ∃ type : ValueType,
        assigned.2.infer before.schema = .ok type ∧ type.column assigned.1 = column)
        aggregates values ∧
      schema.columns = keys ++ values := by
  simp only [summarise, bind_eq_ok] at summarised
  obtain ⟨_, _, keys, known, values, typed, made, listed, result⟩ := summarised
  simp only [mapM_eq_ok, bind_eq_ok, pure_eq_ok] at typed
  refine ⟨keys, values, known, typed, ?_⟩
  rw [← columns_of_schemaOf listed]
  split at result
  · rw [← pure_eq_ok.mp result]
  · simp only [mapError_eq_ok, Schema.withUniqueKey, bind_eq_ok, pure_eq_ok] at result
    obtain ⟨key, _, rfl⟩ := result
    rfl

/-- A window function asks for the columns of its partition and its order, and for a type. -/
theorem schema_of_window {added : Window} (applied : before.apply (.window added) = .ok after) :
    (∃ positions, added.partitionBy.mapM (before.schema.resolve .window) = .ok positions) ∧
      (∃ positions, added.orderBy.mapM (fun key => before.schema.resolve .window key.column) =
        .ok positions) ∧
      ∃ type, added.function.infer before.schema = .ok type ∧
        before.schema.assign [type.column added.name] = .ok after.schema := by
  simp only [apply, throw_bind, guard_eq_ok, bind_eq_ok, pure_eq_ok] at applied
  obtain ⟨_, _, parts, partsKnown, keys, keysKnown, type, typed, schema, assigned, rfl⟩ := applied
  exact ⟨⟨parts, partsKnown⟩, ⟨keys, keysKnown⟩, type, typed, assigned⟩

/-- Grouping leaves the schema as it is. -/
theorem schema_of_groupBy {columns : List String}
    (applied : before.apply (.groupBy columns) = .ok after) : after.schema = before.schema := by
  simp only [apply, throw_bind, guard_eq_ok, bind_eq_ok, pure_eq_ok] at applied
  obtain ⟨_, _, _, _, _, rfl⟩ := applied
  rfl

/-- A new name leaves the schema as it is. -/
theorem schema_of_rename {name : String} (applied : before.apply (.rename name) = .ok after) :
    after.schema = before.schema := by
  simp only [apply, throw_bind, guard_eq_ok, pure_eq_ok] at applied
  obtain ⟨_, rfl⟩ := applied
  rfl

/-- A join asks for ungrouped rows on its left. -/
theorem join_eq_ok {left right : Signature} {kind : JoinKind} {pairs : List (String × String)} :
    left.join right kind pairs = .ok after ↔
      left.groups = [] ∧ ∃ schema, left.schema.join right.schema kind pairs = .ok schema ∧
        ∃ sources, mergeSources left.sources right.sources.entries = .ok sources ∧
          after = { schema, groups := [], name := left.name, sources } := by
  simp only [join, throw_bind, guard_eq_ok, bind_eq_ok, pure_eq_ok]
  constructor
  · rintro ⟨ungrouped, schema, joined, sources, merged, rfl⟩
    exact ⟨by simpa using ungrouped, schema, joined, sources, merged, rfl⟩
  · rintro ⟨ungrouped, schema, joined, sources, merged, rfl⟩
    exact ⟨by simp [ungrouped], schema, joined, sources, merged, rfl⟩

/-- A source is merged that is known with its schema, or not known yet. -/
theorem mergeSources_cons {sources merged : Dictionary String Schema} {entry : String × Schema}
    {entries : List (String × Schema)}
    (made : mergeSources sources (entry :: entries) = .ok merged) :
    (sources.find? entry.1 = some entry.2 ∧ mergeSources sources entries = .ok merged) ∨
      sources.find? entry.1 = none ∧
        mergeSources (sources.insertNamed entry.1 entry.2) entries = .ok merged := by
  rw [mergeSources] at made
  split at made
  · rename_i known found
    split at made
    · rename_i same
      exact .inl ⟨same ▸ found, made⟩
    · cases made
  · rename_i missing
    exact .inr ⟨missing, made⟩

/-- Merging keeps what is found on either side. -/
theorem find?_mergeSources {sources merged : Dictionary String Schema}
    {entries : List (String × Schema)} (made : mergeSources sources entries = .ok merged)
    {name : String} {schema : Schema} :
    merged.find? name = some schema ↔
      sources.find? name = some schema ∨ (name, schema) ∈ entries := by
  induction entries generalizing sources with
  | nil =>
    cases made
    simp
  | cons entry rest ih =>
    obtain ⟨other, added⟩ := entry
    rw [List.mem_cons]
    rcases mergeSources_cons made with ⟨found, made⟩ | ⟨missing, made⟩
    · rw [ih made]
      refine ⟨Or.imp_right .inr, ?_⟩
      rintro (old | here | later)
      · exact .inl old
      · cases here
        exact .inl found
      · exact .inr later
    · rw [ih made, Dictionary.find?_insertNamed]
      split
      · rename_i same
        subst same
        simp [missing, eq_comm]
      · rename_i different
        simp [different]

/-- Where the columns of a schema have different names, so have those after an operation. -/
theorem nodup_of_apply {verb : Verb} (applied : before.apply verb = .ok after)
    (distinct : before.schema.names.Nodup) : after.schema.names.Nodup := by
  cases verb with
  | select columns =>
    have selected := schema_of_select applied
    simp only [Schema.select, bind_eq_ok, pure_eq_ok] at selected
    obtain ⟨_, _, result, listed, made⟩ := selected
    have different := nodup_names_of_schemaOf listed
    rw [← made]
    exact different
  | mutate assignments =>
    obtain ⟨_, _, _, _, schema, made, rfl⟩ := apply_mutate.mp applied
    exact Schema.nodup_names_assign made
  | filter predicate =>
    obtain ⟨_, _, rfl⟩ := apply_filter.mp applied
    exact distinct
  | groupBy columns =>
    rw [schema_of_groupBy applied]
    exact distinct
  | summarise aggregates =>
    have summarised := schema_of_summarise applied
    simp only [summarise, bind_eq_ok] at summarised
    obtain ⟨_, _, keys, _, values, _, made, listed, result⟩ := summarised
    have different := nodup_names_of_schemaOf listed
    split at result
    · rwa [← pure_eq_ok.mp result]
    · simp only [mapError_eq_ok, Schema.withUniqueKey, bind_eq_ok, pure_eq_ok] at result
      obtain ⟨key, _, result⟩ := result
      rw [← result]
      exact different
  | orderBy keys =>
    obtain ⟨_, _, _, rfl⟩ := apply_orderBy.mp applied
    exact distinct
  | window added =>
    obtain ⟨_, _, _, _, made⟩ := schema_of_window applied
    exact Schema.nodup_names_assign made
  | rename name =>
    rw [schema_of_rename applied]
    exact distinct

end Signature

namespace Chain

/-- What is known about a chain that was built. -/
theorem signature_of_built {chain : Chain} {signature : Signature}
    (built : chain.signature? = .ok signature) : chain.signature = signature := by
  rw [Chain.signature, built]

end Chain

end TablePipeline

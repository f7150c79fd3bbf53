import TablePipeline.Proofs.Chain.KeyPositions
import TablePipeline.Proofs.Chain.Soundness

/-! # Declared keys are sound

Nothing checks that the rows of a table are distinct on the keys that its schema declares, and joins
are admitted on the strength of declared keys. If the rows of all sources are as they are declared,
though, the rows after every step are distinct on every key that is known there: each step keeps the
keys that it does not drop, a summary is distinct on its groups, and a join whose pairs cover a key of
its right side has one row at most for every row of its left side. Null is a value like any other
here, and the empty key leaves one row at most.
-/

namespace TablePipeline

/-! ## Summaries -/

/-- The columns of the groups stand in front, in their order. -/
theorem keyPositions_of_groups {schema : Schema} {groups : List String} {others : List String}
    (distinct : schema.names.Nodup) (names : schema.names = groups ++ others) {key : List Nat}
    (found : schema.keyPositions groups = .ok key) : key = List.range groups.length := by
  have placed := Schema.forall₂_keyPositions found
  refine List.ext_getElem (by rw [← placed.length_eq, List.length_range]) fun place inside _ => ?_
  have bound : place < groups.length := placed.length_eq ▸ inside
  have here : schema.names[place]? = some groups[place] := by
    rw [names, List.getElem?_append_left bound, List.getElem?_eq_getElem bound]
  have same := (placed.get bound inside).symm.trans (Schema.position?_of_getElem? distinct here)
  rw [List.getElem_range]
  exact Option.some.inj same

/-- Columns that are looked up have the names that are looked up. -/
theorem names_of_resolveColumn {schema : Schema} {clause : Clause} {names : List String}
    {columns : List Column} (known : names.mapM (schema.resolveColumn clause) = .ok columns) :
    columns.map (·.name) = names := by
  have each := mapM_eq_ok.mp known
  clear known
  induction each with
  | nil => rfl
  | cons first _ ih =>
    have named := List.find?_some (Schema.resolveColumn_eq_ok.mp first)
    rw [List.map_cons, of_decide_eq_true named, ih]

/-- The groups of a summary are its only key, unless there are none. -/
theorem keys_of_summarise {before : Signature} {aggregates : List (String × Aggregate)}
    {schema : Schema} (summarised : before.summarise aggregates = .ok schema) :
    schema.Formed ∧ ∀ key ∈ schema.keys, before.groups ≠ [] ∧
      key = List.range before.groups.length := by
  simp only [Signature.summarise, bind_eq_ok] at summarised
  obtain ⟨_, _, groups, known, values, _, listed, made, result⟩ := summarised
  have none := Schema.keys_of_schemaOf made
  split at result
  · cases pure_eq_ok.mp result
    rw [none]
    exact ⟨Schema.formed_of_schemaOf made, nofun⟩
  · rename_i grouped
    have nonempty : before.groups ≠ [] := by simpa using grouped
    rw [mapError_eq_ok] at result
    refine ⟨(Schema.formed_of_schemaOf made).withUniqueKey result, fun key member => ?_⟩
    have names : listed.names = before.groups ++ values.map (·.name) := by
      rw [Schema.names, columns_of_schemaOf made, List.map_append, names_of_resolveColumn known]
    rcases Schema.mem_keys_withUniqueKey result member with old | found
    · simp [none] at old
    · exact ⟨nonempty, keyPositions_of_groups (nodup_names_of_schemaOf made) names found⟩

/-- The row of a group begins with the key of its first row. -/
theorem pick_summaryRow {keys : List Nat} {bound : List BoundAggregate} {group : List Row}
    {row : Row} (computed : summaryRow keys bound group = .ok row) :
    row.pick (List.range keys.length) = (group.headD []).pick keys := by
  obtain ⟨values, _, rfl⟩ := summaryRow_eq_ok.mp computed
  have front := Row.pick_range_append ((group.headD []).pick keys) values
  rwa [show ((group.headD []).pick keys).length = keys.length from List.length_map _] at front

/-- The rows of a summary begin with the cells that their groups have in common. -/
theorem keysHold_summarise {before : Signature} {aggregates : List (String × Aggregate)}
    {schema : Schema} (summarised : before.summarise aggregates = .ok schema) {keys : List Nat}
    (placed : before.schema.positions .summarise before.groups = .ok keys)
    {bound : List BoundAggregate} {rows result : List Row}
    (computed : (summaryGroups keys rows).mapM (summaryRow keys bound) = .ok result) :
    schema.KeysHold result := by
  intro key member
  obtain ⟨grouped, isKey⟩ := (keys_of_summarise summarised).2 key member
  have lengths := (mapM_eq_ok.mp (mapError_eq_ok.mp placed)).length_eq
  have groups : summaryGroups keys rows = groupsOf (fun row : Row => row.pick keys) rows := by
    cases keys with
    | nil => exact absurd (List.length_eq_zero_iff.mp lengths) grouped
    | cons => rfl
  rw [groups] at computed
  refine (distinctOn_heads keys rows).carry ?_
  rw [List.forall₂_map_left_iff]
  refine (mapM_eq_ok.mp computed).imp fun group row summed => ?_
  rw [isKey, lengths]
  exact pick_summaryRow summed

/-! ## Assignments -/

section Assignments

variable {schema after : Schema} {position : Nat}

/-- A column that is not assigned is read from where it stands. -/
theorem getElem?_assignedItems {assignments : List (String × Expr String)} {columns : List Column}
    (formed : schema.Formed) (typed : Signature.assignedColumns schema assignments = .ok columns)
    (made : schema.assign columns = .ok after) {bound : List (String × Expr Nat)}
    (resolved : bindAssignments schema assignments = .ok bound) {items : List (Expr Nat)}
    (found : assignedItems schema after bound = .ok items) (inside : position < schema.width)
    (other : schema.nameAt position ∉ columns.map (·.name)) :
    items[position]? = some (.column position) := by
  obtain ⟨item, here, result⟩ := exists_getElem?_of_forall₂ (mapM_eq_ok.mp found)
    (Schema.getElem?_names_assign made inside)
  have unassigned : bound.lookup (schema.nameAt position) = none := by
    rcases lookup_assigned typed resolved (schema.nameAt position) with
      ⟨_, none⟩ | ⟨_, _, type, _, _, _, isColumn, _⟩
    · exact none
    · exact absurd (List.mem_map.mpr ⟨_, List.mem_of_find?_eq_some isColumn, rfl⟩) other
  simp only [unassigned, bind_eq_ok, pure_eq_ok, mapError_eq_ok, Schema.resolve_eq_ok] at result
  obtain ⟨place, placed, rfl⟩ := result
  rw [Schema.position?_nameAt formed inside, Option.some.injEq] at placed
  rw [here, placed]

/-- A column that is not computed is taken from where it stands. -/
theorem getElem?_windowItems {computed : String} {type : ValueType} (formed : schema.Formed)
    (made : schema.assign [type.column computed] = .ok after) {items : List (Option Nat)}
    (found : windowItems schema after computed = .ok items) (inside : position < schema.width)
    (other : schema.nameAt position ≠ computed) : items[position]? = some (some position) := by
  obtain ⟨item, here, result⟩ := exists_getElem?_of_forall₂ (mapM_eq_ok.mp found)
    (Schema.getElem?_names_assign made inside)
  simp only [if_neg other, bind_eq_ok, pure_eq_ok, mapError_eq_ok, Schema.resolve_eq_ok] at result
  obtain ⟨place, placed, rfl⟩ := result
  rw [Schema.position?_nameAt formed inside, Option.some.injEq] at placed
  rw [here, placed]

end Assignments

namespace Verb

variable {before after : Signature} {verb : Verb} {rows result : List Row}

theorem formed_apply (formed : before.schema.Formed) (applied : before.apply verb = .ok after) :
    after.schema.Formed := by
  cases verb with
  | select columns => exact Schema.formed_select formed (Signature.schema_of_select applied)
  | mutate assignments =>
    obtain ⟨_, _, _, _, _, made, rfl⟩ := Signature.apply_mutate.mp applied
    exact Schema.formed_assign formed made
  | filter predicate =>
    obtain ⟨_, _, rfl⟩ := Signature.apply_filter.mp applied
    exact formed
  | groupBy columns =>
    rw [Signature.schema_of_groupBy applied]
    exact formed
  | summarise aggregates => exact (keys_of_summarise (Signature.schema_of_summarise applied)).1
  | orderBy keys =>
    obtain ⟨_, _, _, rfl⟩ := Signature.apply_orderBy.mp applied
    exact formed
  | window added =>
    obtain ⟨_, _, _, _, made⟩ := Signature.schema_of_window applied
    exact Schema.formed_assign formed made
  | rename name =>
    rw [Signature.schema_of_rename applied]
    exact formed

/-- The keys that a step leaves hold of the rows after it. -/
theorem keysHold_rows (formed : before.schema.Formed) (applied : before.apply verb = .ok after)
    (holds : before.schema.KeysHold rows)
    (computed : verb.rows before after.schema rows = .ok result) :
    after.schema.KeysHold result := by
  cases verb with
  | groupBy columns =>
    cases computed
    rwa [Signature.schema_of_groupBy applied]
  | rename name =>
    cases computed
    rwa [Signature.schema_of_rename applied]
  | select columns =>
    simp only [Verb.rows, bind_eq_ok, pure_eq_ok] at computed
    obtain ⟨positions, placed, rfl⟩ := computed
    exact holds.select formed (Signature.schema_of_select applied) placed
  | mutate assignments =>
    obtain ⟨_, _, columns, typed, schema, made, rfl⟩ := Signature.apply_mutate.mp applied
    simp only [Verb.rows, bind_eq_ok, pure_eq_ok] at computed
    obtain ⟨bound, resolved, items, found, rfl⟩ := computed
    have all : (rows.map id).Sublist rows := by simp
    refine holds.assign formed made all fun row _ position inside other => ?_
    exact Row.cell_map (getElem?_assignedItems formed typed made resolved found inside other)
  | filter predicate =>
    obtain ⟨_, _, rfl⟩ := Signature.apply_filter.mp applied
    simp only [Verb.rows, bind_eq_ok, pure_eq_ok] at computed
    obtain ⟨_, _, rfl⟩ := computed
    exact fun key isKey => (holds key isKey).sublist List.filter_sublist
  | summarise aggregates =>
    simp only [Verb.rows, bind_eq_ok] at computed
    obtain ⟨keys, placed, bound, resolved, computed⟩ := computed
    exact keysHold_summarise (Signature.schema_of_summarise applied) placed computed
  | orderBy keys =>
    obtain ⟨_, _, _, rfl⟩ := Signature.apply_orderBy.mp applied
    simp only [Verb.rows, bind_eq_ok, pure_eq_ok] at computed
    obtain ⟨_, _, rfl⟩ := computed
    exact fun key isKey => (holds key isKey).perm (List.mergeSort_perm rows _).symm
  | window added =>
    obtain ⟨_, _, type, typed, made⟩ := Signature.schema_of_window applied
    simp only [Verb.rows, bind_eq_ok, pure_eq_ok, mapError_eq_ok] at computed
    obtain ⟨partition, _, keys, _, function, bound, items, found, rfl⟩ := computed
    have all : ((rows.zip (function.column partition keys rows)).map Prod.fst).Sublist rows := by
      rw [List.map_fst_zip (by simp [BoundWindow.column])]
    refine holds.assign formed made all fun pair _ position inside other => ?_
    have notComputed : before.schema.nameAt position ≠ added.name := fun same =>
      other (List.mem_singleton.mpr same)
    rw [Row.cell_map (getElem?_windowItems formed made found inside notComputed)]
    rfl

end Verb

/-! ## Tables -/

/-- Has every cell exactly the type of its column, unless it is null? -/
def Schema.Typed (schema : Schema) (row : Row) : Prop :=
  ∀ entry ∈ schema.columns.zip row, ∀ type, entry.2.type? = some type → type = entry.1.type

namespace Table

variable {name : String} {schema : Schema} {rows : List Row}

/-- A cell of the type of its column is stored as it is. -/
theorem eq_of_admitCell {index : Nat} {column : Column} {cell stored : Cell}
    (typed : ∀ type, cell.type? = some type → type = column.type)
    (admits : admitCell name index column cell = .ok stored) : stored = cell := by
  unfold admitCell at admits
  split at admits
  · split at admits
    · exact (Except.ok.inj admits).symm
    · cases admits
  · rename_i isInt
    rw [if_pos (typed _ isInt).symm] at admits
    exact (Except.ok.inj admits).symm
  · split at admits
    · exact (Except.ok.inj admits).symm
    · cases admits

/-- A row of the types of its columns is stored as it is. -/
theorem eq_of_admitRow {index : Nat} {row stored : Row} (typed : schema.Typed row)
    (admits : admitRow name schema index row = .ok stored) : stored = row := by
  obtain ⟨lengths, admits⟩ := admitRow_eq_ok.mp admits
  have each := forall₂_of_mem admits fun entry member cell admitted =>
    (eq_of_admitCell (typed entry member) admitted).symm
  rw [← List.forall₂_map_left_iff, List.forall₂_eq_eq_eq] at each
  exact each.symm.trans (List.map_snd_zip (Nat.le_of_eq lengths))

/-- Rows of the types of their columns are stored as they are. -/
theorem rows_of_ofRows (typed : ∀ row ∈ rows, schema.Typed row) {table : Table}
    (made : ofRows name schema rows = .ok table) : table.schema = schema ∧ table.rows = rows := by
  simp only [ofRows, bind_eq_ok, pure_eq_ok] at made
  obtain ⟨stored, computed, rfl⟩ := made
  refine ⟨rfl, ?_⟩
  have each := forall₂_of_mem (mapM_eq_ok.mp computed) fun numbered member row admitted =>
    (eq_of_admitRow (typed _ (List.fst_mem_of_mem_zipIdx member)) admitted).symm
  rw [← List.forall₂_map_left_iff, List.forall₂_eq_eq_eq] at each
  exact each.symm.trans (List.zipIdx_map_fst ..)

end Table

namespace Chain

variable {inputs : Inputs} {signature : Signature}

/-- Are the schemas of all sources that a run comes to well formed, and are the rows of their tables
distinct on the keys that they declare? -/
def Keyed (inputs : Inputs) (chain : Chain) : Prop :=
  ∀ {name : String} {schema : Schema}, chain.Reaches inputs (source name schema) →
    schema.Formed ∧ ∀ {table : Table}, inputs.find? name = some table → schema.KeysHold table.rows

/-- Do all joins that a run comes to pair columns of the same type? -/
def Equijoined (inputs : Inputs) (chain : Chain) : Prop :=
  ∀ {input right : Chain} {kind : JoinKind} {pairs : List (String × String)},
    chain.Reaches inputs (join input right kind pairs) → ∀ pair ∈ pairs,
      (input.schema.column? pair.1).map (·.type) = (right.schema.column? pair.2).map (·.type)

/-- What holds of the keys that are known at a step of a run. -/
structure KeysSound (inputs : Inputs) (chain : Chain) : Prop where
  /-- The rows after the step are distinct on every key. -/
  rows : ∀ {rows : List Row}, chain.rows inputs = .ok rows → chain.schema.KeysHold rows
  /-- So are the rows of the table that they make, if all cells have the types of their columns. -/
  table : ∀ {rows : List Row} {table : Table}, chain.rows inputs = .ok rows →
    (∀ row ∈ rows, chain.schema.Typed row) → chain.run inputs = .ok table →
      table.schema = chain.schema ∧ table.schema.KeysHold table.rows
  /-- A join that covers a key of its right side joins every left row once at most. -/
  single : ∀ {input right : Chain} {kind : JoinKind} {pairs : List (String × String)}
    {leftRows rightRows : List Row}, chain = join input right kind pairs →
    right.schema.coversKey (pairs.map (·.2)) = true → input.rows inputs = .ok leftRows →
    right.rows inputs = .ok rightRows →
      ∃ columns, joinKeyColumns input.schema right.schema pairs = .ok columns ∧
        let joined (row : Row) : List Row := joinRows kind columns
          (Schema.joinLayout input.schema right.schema pairs) [row] rightRows
        chain.rows inputs = .ok (leftRows.flatMap joined) ∧ ∀ row, (joined row).length ≤ 1

/-- The schema after a built chain is well formed, and its keys hold of the rows. -/
theorem keysHold_of_built {chain : Chain} (built : chain.signature? = .ok signature)
    (keyed : chain.Keyed inputs) (equijoined : chain.Equijoined inputs) {rows : List Row}
    (computed : chain.rows inputs = .ok rows) :
    signature.schema.Formed ∧ signature.schema.KeysHold rows := by
  induction chain generalizing signature rows with
  | source name schema =>
    obtain ⟨formed, holds⟩ := keyed .refl
    cases built
    obtain ⟨table, found, computed⟩ := bind_eq_ok.mp computed
    cases computed
    obtain ⟨_, bound, found⟩ := bind_eq_ok.mp found
    unfold Inputs.get at bound
    split at bound
    · cases bound
      split at found
      · cases found
        exact ⟨formed, holds ‹_›⟩
      · cases found
    · cases bound
  | apply input verb ih =>
    have whole := signature_of_built built
    obtain ⟨before, inputBuilt, applied⟩ := bind_eq_ok.mp built
    obtain ⟨inputRows, inputDone, computed⟩ := bind_eq_ok.mp computed
    rw [schema, whole, signature_of_built inputBuilt] at computed
    obtain ⟨formed, holds⟩ := ih inputBuilt (fun reaches => keyed (.apply reaches))
      (fun reaches => equijoined (.apply reaches)) inputDone
    exact ⟨Verb.formed_apply formed applied, Verb.keysHold_rows formed applied holds computed⟩
  | join input right kind pairs ihLeft ihRight =>
    obtain ⟨left, leftBuilt, built⟩ := bind_eq_ok.mp built
    obtain ⟨known, rightBuilt, joined⟩ := bind_eq_ok.mp built
    obtain ⟨_, schema, made, _, _, rfl⟩ := Signature.join_eq_ok.mp joined
    simp only [Chain.rows, bind_eq_ok, pure_eq_ok] at computed
    obtain ⟨leftRows, leftDone, rightRows, rightDone, columns, found, rfl⟩ := computed
    have sameTypes := equijoined .refl
    rw [Chain.schema, Chain.schema, signature_of_built leftBuilt, signature_of_built rightBuilt]
      at found sameTypes ⊢
    obtain ⟨formed, holds⟩ := ihLeft leftBuilt (fun reaches => keyed (.left reaches))
      (fun reaches => equijoined (.left reaches)) leftDone
    obtain ⟨rightFormed, rightHolds⟩ := ihRight rightBuilt
      (fun reaches => keyed (.right leftDone reaches))
      (fun reaches => equijoined (.right leftDone reaches)) rightDone
    exact ⟨Schema.formed_join formed made, holds.join formed made columns fun covers =>
      rightHolds.length_joinPartners_le_one rightFormed covers sameTypes found⟩

/-- The keys that are known at the last step of a chain are sound. -/
theorem keysSound_of_built {chain : Chain} (built : chain.signature? = .ok signature)
    (keyed : chain.Keyed inputs) (equijoined : chain.Equijoined inputs) :
    chain.KeysSound inputs := by
  have holds {rows : List Row} (computed : chain.rows inputs = .ok rows) :
      chain.schema.KeysHold rows := by
    rw [schema, signature_of_built built]
    exact (keysHold_of_built built keyed equijoined computed).2
  refine ⟨holds, fun {rows table} computed typed ran => ?_, ?_⟩
  · simp only [run, computed, ok_bind, mapError_eq_ok] at ran
    obtain ⟨sameSchema, sameRows⟩ := Table.rows_of_ofRows typed ran
    rw [sameSchema, sameRows]
    exact ⟨rfl, holds computed⟩
  · rintro input right kind pairs leftRows rightRows rfl covers leftDone rightDone
    have sameTypes := equijoined .refl
    obtain ⟨left, leftBuilt, built⟩ := bind_eq_ok.mp built
    obtain ⟨known, rightBuilt, joined⟩ := bind_eq_ok.mp built
    obtain ⟨_, _, made, _⟩ := Signature.join_eq_ok.mp joined
    obtain ⟨formed, rightHolds⟩ := keysHold_of_built rightBuilt
      (fun reaches => keyed (.right leftDone reaches))
      (fun reaches => equijoined (.right leftDone reaches)) rightDone
    rw [rows, leftDone, rightDone, ok_bind, ok_bind]
    simp only [Chain.schema, signature_of_built leftBuilt, signature_of_built rightBuilt]
      at sameTypes covers ⊢
    obtain ⟨columns, found, _⟩ := Schema.joinKeyColumns_of_join made
    refine ⟨columns, found, ?_, fun row => ?_⟩
    · rw [found, ok_bind, joinRows_eq_flatMap]
      rfl
    · rw [joinRows, List.length_map]
      exact length_joinPairs_le_one
        (rightHolds.length_joinPartners_le_one formed covers sameTypes found) row

/-- If the rows of all sources are distinct on the keys that they declare and joins pair columns of
the same type, the keys that are known after a step are sound, for every step that a run comes to. -/
theorem keysSound_of_reaches {chain : Chain} (built : chain.signature? = .ok signature)
    (keyed : chain.Keyed inputs) (equijoined : chain.Equijoined inputs) {part : Chain}
    (reaches : chain.Reaches inputs part) : part.KeysSound inputs := by
  obtain ⟨known, partBuilt⟩ := reaches.built built
  exact keysSound_of_built partBuilt (fun further => keyed (reaches.trans further))
    fun further => equijoined (reaches.trans further)

/-- The net amounts of `regionTotals` by region, where every region is listed once: the summary is
distinct on the region, and so is the join. -/
theorem keysSound_regionTotals :
    regionTotals.signature? = .ok regionTotals.signature ∧ regionTotals.Keyed regionInputs ∧
      regionTotals.Equijoined regionInputs ∧ regionTotals.schema.keys = [[0]] ∧
      regionTotals.KeysSound regionInputs := by
  have built : regionTotals.signature? = .ok regionTotals.signature := rfl
  have keyed : regionTotals.Keyed regionInputs := by
    intro name schema reaches
    cases reaches with
    | left reaches =>
      cases reaches with | apply reaches => cases reaches with | apply reaches =>
      cases reaches with | apply reaches => cases reaches with | refl =>
      exact ⟨⟨by decide, nofun⟩, fun found => by cases found; decide⟩
    | right _ reaches =>
      cases reaches
      exact ⟨⟨by decide, by decide⟩, fun found => by cases found; decide⟩
  have equijoined : regionTotals.Equijoined regionInputs := by
    intro input right kind pairs reaches
    cases reaches with
    | refl => decide
    | left reaches =>
      cases reaches with | apply reaches => cases reaches with | apply reaches =>
      cases reaches with | apply reaches => cases reaches
    | right _ reaches => cases reaches
  exact ⟨built, keyed, equijoined, by decide, keysSound_of_reaches built keyed equijoined .refl⟩

end Chain

end TablePipeline

import TablePipeline.Proofs.Chain.Keys
import TablePipeline.Proofs.Rows.Totals

/-! # Totals of groups

A summary with sums of integers gives one row for each group, in which each sum stands at the place of
its aggregate and is the total of the integers that its argument takes in the rows of the group. The
only other way for it to end is that such a total leaves 64 bits on its way, and the run says so. A row
in which the argument overflows into a double is left out, although the argument is not null there; if
no integer overflows, the rows that are left out are those in which the argument is null.
-/

namespace TablePipeline

/-! ## The row of a group -/

/-- Is a cell the sum of an argument over a group? The rows that are left out of it are those in which
the argument is null, unless an integer overflows there. -/
structure SumsTo (schema : Schema) (argument : Expr Nat) (group : List Row) (cell : Cell) : Prop where
  isTotal : IsTotal (argument.integers group) cell
  leftOut : ∀ row ∈ group, schema.Admits row → argument.Exact row →
    (argument.eval row).asInt? = none → argument.eval row = .null

/-- Does the row of a group have all sums of integers at their places behind the keys? -/
def HoldsSums (schema : Schema) (aggregates : List (String × Aggregate)) (keyCount : Nat)
    (group : List Row) (row : Row) : Prop :=
  ∀ {place : Nat} {name : String} {argument : Expr String} {value : ValueType},
    aggregates[place]? = some (name, ⟨.sum, some argument⟩) →
      argument.infer schema .summarise = .ok value → value.type = .int →
        ∃ bound, argument.bind schema = .ok bound ∧
          SumsTo schema bound group (row.cell (keyCount + place))

/-- Does a sum of integers over a group, under the name of a column, leave 64 bits on its way? -/
def Overflows (schema : Schema) (aggregates : List (String × Aggregate)) (group : List Row)
    (column : String) : Prop :=
  ∃ argument bound, (column, ⟨.sum, some argument⟩) ∈ aggregates ∧
    argument.bind schema = .ok bound ∧
      ∃ count, ¬ Number.Fits (total ((bound.integers group).take count))

/-- An aggregate with an argument is bound with its argument. -/
theorem bindArgument_some {schema : Schema} {written : Expr String} {argument : Option (Expr Nat)}
    (resolved : (some written).mapM (bindExpr schema) = .ok argument) :
    ∃ bound, argument = some bound ∧ written.bind schema = .ok bound := by
  simp only [Option.mapM_some, map_eq_pure_bind, bind_eq_ok, pure_eq_ok, bindExpr,
    mapError_eq_ok] at resolved
  obtain ⟨bound, resolved, rfl⟩ := resolved
  exact ⟨bound, rfl, resolved⟩

theorem Aggregate.infer_sum {schema : Schema} {argument : Expr String} {value type : ValueType}
    (typed : argument.infer schema .summarise = .ok value)
    (known : Aggregate.infer schema ⟨.sum, some argument⟩ = .ok type) : type = ⟨value.type, true⟩ := by
  simp only [infer, typed, ok_bind, bind_eq_ok, ValueType.numeric_eq_ok, pure_eq_ok] at known
  obtain ⟨_, ⟨_, rfl⟩, rfl⟩ := known
  rfl

section Summary

variable {schema : Schema} {aggregates : List (String × Aggregate)} {bound : List BoundAggregate}
  {keys : List Nat} {group : List Row}

/-- The values of aggregates stand behind the keys, at the places of the aggregates. -/
theorem applied_of_summaryRow (binds : List.Forall₂ (BoundAggregate.Binds schema) aggregates bound)
    {row : Row} (computed : summaryRow keys bound group = .ok row) {place : Nat}
    {assigned : String × Aggregate} (here : aggregates[place]? = some assigned) :
    ∃ aggregate, BoundAggregate.Binds schema assigned aggregate ∧
      aggregate.function.apply? aggregate.type aggregate.argument group =
        some (row.cell (keys.length + place)) := by
  obtain ⟨values, given, rfl⟩ := summaryRow_eq_ok.mp computed
  obtain ⟨aggregate, isBound, written⟩ := exists_getElem?_of_forall₂ binds here
  obtain ⟨cell, isCell, applied⟩ := exists_getElem?_of_forall₂ given isBound
  have stands : Row.cell ((group.headD []).pick keys ++ values) (keys.length + place) = cell := by
    have front : ((group.headD []).pick keys).length = keys.length := List.length_map _
    rw [Row.cell, List.getElem?_append_right (by omega), front, Nat.add_sub_cancel_left, isCell,
      Option.getD_some]
  exact ⟨aggregate, written, by rw [stands, applied]⟩

/-- The row of a group has its sums. -/
theorem holdsSums_summaryRow (binds : List.Forall₂ (BoundAggregate.Binds schema) aggregates bound)
    {row : Row} (computed : summaryRow keys bound group = .ok row) :
    HoldsSums schema aggregates keys.length group row := by
  intro place name argument value here typed isInt
  obtain ⟨aggregate, written, applied⟩ := applied_of_summaryRow binds computed here
  obtain ⟨expr, isArgument, resolved⟩ := bindArgument_some written.argument
  obtain ⟨type, known, sameType⟩ := written.type
  rw [written.function, isArgument, sameType, Aggregate.infer_sum typed known, isInt] at applied
  refine ⟨expr, resolved, AggregateFunction.isTotal_of_apply? applied,
    fun row _ admitted exact leftOut => ?_⟩
  exact Expr.eval_eq_null_of_left_out typed isInt resolved admitted exact leftOut

/-- A group without a row has a sum that overflows. -/
theorem overflows_of_summaryRow (binds : List.Forall₂ (BoundAggregate.Binds schema) aggregates bound)
    {error : RunError} (failed : summaryRow keys bound group = .error error) :
    ∃ column, error = .integerOverflow column ∧ Overflows schema aggregates group column := by
  rcases bind_eq_error.mp failed with failed | ⟨_, _, none⟩
  · obtain ⟨aggregate, isBound, failed⟩ := exists_of_mapM_eq_error failed
    obtain ⟨assigned, isWritten, written⟩ := exists_of_mem_right binds isBound
    split at failed
    · cases failed
    · rename_i overflows
      cases failed
      obtain ⟨isSum, _, expr, isArgument, beyond⟩ :=
        AggregateFunction.eq_sum_of_apply?_eq_none overflows
      obtain ⟨name, function, argument⟩ := assigned
      have resolved := written.argument
      rw [isArgument] at resolved
      cases argument with
      | none => cases resolved
      | some argument =>
        obtain ⟨_, same, resolved⟩ := bindArgument_some resolved
        cases same
        refine ⟨_, rfl, argument, expr, ?_, resolved, beyond⟩
        rw [written.name]
        rw [← written.function.symm.trans isSum]
        exact isWritten
  · cases none

end Summary

/-! ## The table of a summary -/

/-- Wherever a cell has the type of its column, it is stored as it is. -/
theorem Table.cell_of_ofRows {name : String} {schema : Schema} {rows : List Row} {table : Table}
    (made : ofRows name schema rows = .ok table) :
    List.Forall₂ (fun row stored => ∀ {place : Nat} {column : Column},
      schema.columns[place]? = some column →
        (∀ type, (Row.cell row place).type? = some type → type = column.type) →
          Row.cell stored place = Row.cell row place) rows table.rows := by
  simp only [ofRows, bind_eq_ok, pure_eq_ok, mapM_eq_ok] at made
  obtain ⟨stored, made, rfl⟩ := made
  rw [← List.zipIdx_map_fst 0 rows, List.forall₂_map_left_iff]
  refine made.imp fun numbered stored admits place column here typed => ?_
  obtain ⟨lengths, admits⟩ := admitRow_eq_ok.mp admits
  obtain ⟨inside, _⟩ := List.getElem?_eq_some_iff.mp here
  have inRow : place < numbered.1.length := lengths.symm ▸ inside
  have isCell : numbered.1[place]? = some (Row.cell numbered.1 place) := by
    rw [Row.cell, List.getElem?_eq_getElem inRow, Option.getD_some]
  have entry : (schema.columns.zip numbered.1)[place]? =
      some (column, Row.cell numbered.1 place) :=
    List.getElem?_zip_eq_some.mpr ⟨here, isCell⟩
  obtain ⟨cell, isStored, admits⟩ := exists_getElem?_of_forall₂ admits entry
  rw [Row.cell, isStored, Option.getD_some]
  exact eq_of_admitCell typed admits

/-- Relations between lists follow one another. -/
theorem forall₂_trans {α β γ : Type} {first : α → β → Prop} {second : β → γ → Prop}
    {whole : α → γ → Prop} (step : ∀ {a b c}, first a b → second b c → whole a c) {items : List α}
    {results : List β} (left : List.Forall₂ first items results) {others : List γ}
    (right : List.Forall₂ second results others) : List.Forall₂ whole items others := by
  induction left generalizing others with
  | nil =>
    cases right
    exact .nil
  | cons here _ ih =>
    obtain ⟨other, others, next, rest, rfl⟩ := List.forall₂_cons_left_iff.mp right
    exact .cons (step here next) (ih rest)

/-- A table keeps the sums of its rows. -/
theorem HoldsSums.stored {before after : Schema} {aggregates : List (String × Aggregate)}
    {keys columns : List Column}
    (typed : List.Forall₂ (fun assigned column => ∃ type : ValueType,
      assigned.2.infer before = .ok type ∧ type.column assigned.1 = column) aggregates columns)
    (made : after.columns = keys ++ columns) {group : List Row} {row stored : Row}
    (holds : HoldsSums before aggregates keys.length group row)
    (same : ∀ {place : Nat} {column : Column}, after.columns[place]? = some column →
      (∀ type, (row.cell place).type? = some type → type = column.type) →
        stored.cell place = row.cell place) :
    HoldsSums before aggregates keys.length group stored := by
  intro place name argument value here argumentTyped isInt
  obtain ⟨bound, resolved, sums⟩ := holds here argumentTyped isInt
  obtain ⟨column, isColumn, type, known, rfl⟩ := exists_getElem?_of_forall₂ typed here
  have there : after.columns[keys.length + place]? = some (type.column name) := by
    rw [made, List.getElem?_append_right (Nat.le_add_right ..), Nat.add_sub_cancel_left, isColumn]
  have fits : ∀ found, (row.cell (keys.length + place)).type? = some found →
      found = (type.column name).type := by
    intro found hasType
    rw [Aggregate.infer_sum argumentTyped known]
    by_cases isNull : row.cell (keys.length + place) = .null
    · rw [isNull] at hasType
      cases hasType
    · obtain ⟨sum, isSum, _⟩ := sums.isTotal.sum isNull
      rw [isSum] at hasType
      cases hasType
      exact isInt.symm
  refine ⟨bound, resolved, ?_⟩
  rw [same there fits]
  exact sums

namespace Chain

variable {inputs : Inputs} {signature : Signature}

/-- A summary of rows that are computed has all sums of integers, in its rows and in the table of its
run, or its run says which of them overflows. -/
theorem run_of_sums {input : Chain} {aggregates : List (String × Aggregate)}
    (built : (apply input (.summarise aggregates)).signature? = .ok signature) {rows : List Row}
    (computed : input.rows inputs = .ok rows) :
    ∃ keys, input.schema.positions .summarise input.signature.groups = .ok keys ∧
      ((∃ results, (apply input (.summarise aggregates)).rows inputs = .ok results ∧
          List.Forall₂ (HoldsSums input.schema aggregates keys.length) (summaryGroups keys rows)
            results ∧
          ∀ {table : Table}, (apply input (.summarise aggregates)).run inputs = .ok table →
            List.Forall₂ (HoldsSums input.schema aggregates keys.length) (summaryGroups keys rows)
              table.rows) ∨
        ∃ column, (apply input (.summarise aggregates)).run inputs =
            .error (.integerOverflow column) ∧
          ∃ group ∈ summaryGroups keys rows, Overflows input.schema aggregates group column) := by
  have whole := signature_of_built built
  obtain ⟨before, inputBuilt, applied⟩ := bind_eq_ok.mp built
  have known := signature_of_built inputBuilt
  have summarised := Signature.schema_of_summarise applied
  obtain ⟨keyColumns, columns, found, typed, made⟩ := Signature.columns_of_summarise summarised
  obtain ⟨keys, placed, _⟩ := Schema.positions_of_known .summarise
    fun _ => Schema.known_of_resolveColumn found
  have lengths : keyColumns.length = keys.length := by
    rw [← (mapM_eq_ok.mp found).length_eq, ← (mapM_eq_ok.mp (mapError_eq_ok.mp placed)).length_eq]
  obtain ⟨bound, resolved, _⟩ := bindAggregates_of_typed signature.schema keys.length typed
  have binds := binds_of_bindAggregates typed made (lengths ▸ resolved)
  have done : (apply input (.summarise aggregates)).rows inputs =
      (summaryGroups keys rows).mapM (summaryRow keys bound) := by
    rw [Chain.rows, computed, ok_bind, schema, whole, known, Verb.rows, placed, ok_bind, resolved,
      ok_bind]
  rw [schema, known]
  refine ⟨keys, placed, ?_⟩
  cases outcome : (summaryGroups keys rows).mapM (summaryRow keys bound) with
  | ok results =>
    have holds : List.Forall₂ (HoldsSums before.schema aggregates keys.length)
        (summaryGroups keys rows) results :=
      (mapM_eq_ok.mp outcome).imp fun _ _ => holdsSums_summaryRow binds
    refine .inl ⟨results, done.trans outcome, holds, fun ran => ?_⟩
    rw [run, done, outcome, ok_bind, mapError_eq_ok, schema, whole] at ran
    rw [← lengths] at holds ⊢
    exact forall₂_trans (fun sums same => sums.stored typed made same) holds (Table.cell_of_ofRows ran)
  | error error =>
    obtain ⟨group, isGroup, failed⟩ := exists_of_mapM_eq_error outcome
    obtain ⟨column, rfl, overflows⟩ := overflows_of_summaryRow binds failed
    exact .inr ⟨column, by rw [run, done, outcome, error_bind], group, isGroup, overflows⟩

/-- Sales by shop. -/
def shopSchema : Schema :=
  ⟨[⟨"shop", .text, true⟩, ⟨"amount", .int, true⟩], [], []⟩

/-- The amount of a sale with a fee. -/
def grossAmount : Expr String :=
  .binary (.arithmetic .add) (.column "amount") (.literal (.int 1))

/-- The number of sales and their gross sum. -/
def grossSums : List (String × Aggregate) :=
  [("sales", ⟨.countRows, none⟩), ("gross", ⟨.sum, some grossAmount⟩)]

/-- Sales of two shops. The north has a sale of the largest amount that there is, and the south
has none that is known. -/
def shopRows : List Row :=
  [[.text "north", .int 5], [.text "south", .null], [.text "north", .int Int64.maxValue],
    [.text "north", .int 9]]

def shopInputs : Inputs :=
  ⟨[("sales", ⟨"sales", shopSchema, shopRows⟩)]⟩

/-- The sales of each shop. -/
def shopGroups : Chain :=
  apply (source "sales" shopSchema) (.groupBy ["shop"])

/-- The gross sums of the two shops. -/
theorem run_grossSums :
    (apply shopGroups (.summarise grossSums)).signature? =
        .ok (apply shopGroups (.summarise grossSums)).signature ∧
      shopGroups.rows shopInputs = .ok shopRows ∧
      ∃ keys, shopGroups.schema.positions .summarise shopGroups.signature.groups = .ok keys ∧
        ((∃ results, (apply shopGroups (.summarise grossSums)).rows shopInputs = .ok results ∧
            List.Forall₂ (HoldsSums shopGroups.schema grossSums keys.length)
              (summaryGroups keys shopRows) results ∧
            ∀ {table : Table}, (apply shopGroups (.summarise grossSums)).run shopInputs = .ok table →
              List.Forall₂ (HoldsSums shopGroups.schema grossSums keys.length)
                (summaryGroups keys shopRows) table.rows) ∨
          ∃ column, (apply shopGroups (.summarise grossSums)).run shopInputs =
              .error (.integerOverflow column) ∧
            ∃ group ∈ summaryGroups keys shopRows,
              Overflows shopGroups.schema grossSums group column) := by
  have built : (apply shopGroups (.summarise grossSums)).signature? =
      .ok (apply shopGroups (.summarise grossSums)).signature := rfl
  have computed : shopGroups.rows shopInputs = .ok shopRows := rfl
  exact ⟨built, computed, run_of_sums built computed⟩

/-- The gross amount of the largest sale is a double, and the sum of the north is that of its other two
sales: nothing tells that it does not fit 64 bits. -/
theorem table_grossSums :
    (∃ table, (apply shopGroups (.summarise grossSums)).run shopInputs = .ok table ∧
        table.rows = [[.text "north", .int 3, .int 16], [.text "south", .int 1, .null]]) ∧
      ∃ bound, grossAmount.bind shopSchema = .ok bound ∧
        bound.eval [.text "north", .int Int64.maxValue] ≠ .null := by
  have groups : summaryGroups [0] shopRows =
      [[[.text "north", .int 5], [.text "north", .int Int64.maxValue], [.text "north", .int 9]],
        [[.text "south", .null]]] := by
    simp [summaryGroups, groupsOf, shopRows, Row.pick, Row.cell, Row.same, Cell.canonical]
  have computed : (apply shopGroups (.summarise grossSums)).rows shopInputs =
      .ok [[.text "north", .int 3, .int 16], [.text "south", .int 1, .null]] := by
    change (summaryGroups [0] shopRows).mapM (summaryRow [0] _) = _
    rw [groups]
    rfl
  refine ⟨?_, _, rfl, ?_⟩
  · rw [run, computed]
    exact ⟨_, rfl, rfl⟩
  · intro isNull
    cases isNull

end Chain

end TablePipeline

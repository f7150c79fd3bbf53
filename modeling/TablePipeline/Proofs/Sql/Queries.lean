import TablePipeline.Proofs.Chain.Preservation
import TablePipeline.Proofs.Sql.Selections

/-! # Operations are drafted as relations of their schemas

The query of an operation is a relation over the relation of the rows before it. If the relation
before gives the columns of the schema before, with the types that are read of them, then the one
after gives the columns of the schema after.
-/

namespace TablePipeline

/-! ## Queries over a subquery -/

/-- A query over a labelled subquery, with what stands behind the label. -/
theorem Sql.symbols_selectFrom {items inner : Sql} {selection : SqlSelection}
    {relation : SqlRelation} (selects : items.symbols = selection.symbols)
    (from_ : inner.symbols = relation.symbols) (label : Nat) (tail : SqlTail) :
    (selectFrom items inner (words ("t" ++ toString label))).symbols ++
        (wordSymbols tail.word ++ tail.payload) =
      (SqlRelation.query selection relation label tail).symbols := by
  have bracket : " FROM (" = " FROM " ++ "(" := rfl
  change _ = selectSymbols selection
    (wordSymbols "(" ++ labelled relation.symbols label tail.word tail.payload)
  rw [selectFrom, bracket, selectSymbols, labelled]
  simp only [symbols_append, symbols_words, wordSymbols_append, selects, from_, List.append_assoc]

/-- A query over a subquery alone. -/
theorem Sql.symbols_selectAll {items inner : Sql} {selection : SqlSelection}
    {relation : SqlRelation} (selects : items.symbols = selection.symbols)
    (from_ : inner.symbols = relation.symbols) (label : Nat) :
    (selectFrom items inner (words ("t" ++ toString label))).symbols =
      (SqlRelation.query selection relation label .all).symbols := by
  rw [← symbols_selectFrom selects from_]
  exact (List.append_nil _).symm

/-- Does a relation give the columns of a schema where another one gives those of the schema before
it? -/
def SqlRelation.Leads (nulls : List CellType) (used : List Cell) (before after : Schema)
    (relation next : SqlRelation) : Prop :=
  ∀ {view : SqlView} {parameters : List Cell} {tables : String → List (String × CellType)},
    before.names.Nodup → view.Admits nulls → used <+: parameters →
    before.ShownIn view (relation.columns view parameters tables) →
    after.ShownIn view (next.columns view parameters tables)

/-- What is known where an item of a query over a schema is written. -/
abbrev Schema.Known (schema : Schema) (nulls : List CellType) (used : List Cell)
    (context : SqlContext) : Prop :=
  schema.names.Nodup ∧ context.Knows nulls used schema

section Selections

variable {nulls : List CellType} {used : List Cell} {before after : Schema}
  {relation : SqlRelation} {items : List SqlItem} {item : SqlItem} {selection : SqlSelection}
  {sqls : List Sql} {inner position : Sql}

/-- A query of items that give the columns of a schema, and of a position. -/
theorem SqlRelation.leads_query
    (gives : ∀ context, before.Known nulls used context → ∀ all,
      items.flatMap (SqlItem.columns (SqlTerm.type context) all) =
        after.columns.map fun column => (column.name, context.view.see column.type))
    (isPosition : item.IsPosition)
    (selects : ∀ type all, selection.columns type all =
      items.flatMap (SqlItem.columns type all) ++ item.columns type all)
    (label : Nat) (tail : SqlTail) :
    relation.Leads nulls used before after (query selection relation label tail) := by
  intro view parameters tables distinct admits inUse shown
  rw [columns, selects]
  exact Schema.shownIn_append isPosition (gives _ ⟨distinct, shown.knows admits inUse⟩ _)

/-- A query of drafted items with a position behind them. -/
theorem exists_query
    (each : List.Forall₂ (DraftsItem (before.Known nulls used)) sqls after.columns)
    (isItem : position.symbols = item.symbols) (isPosition : item.IsPosition)
    (from_ : inner.symbols = relation.symbols) (label : Nat) (tail : SqlTail) :
    ∃ next : SqlRelation,
      (Sql.selectFrom (Sql.separated ", " sqls ++ Sql.words ", " ++ position) inner
        (Sql.words ("t" ++ toString label))).symbols ++ (wordSymbols tail.word ++ tail.payload) =
          next.symbols ∧ relation.Leads nulls used before after next := by
  obtain ⟨items, symbols, gives⟩ := exists_items each
  refine ⟨.query ((SqlSelection.ofItems items).push item) relation label tail,
    Sql.symbols_selectFrom ?_ from_ label tail,
    SqlRelation.leads_query gives isPosition ?_ label tail⟩
  · simp only [Sql.symbols_append, Sql.symbols_words, Sql.symbols_separated, symbols, isItem,
      SqlSelection.symbols_push, SqlSelection.symbols_ofItems, commaSymbols, List.append_assoc]
  · intro type all
    rw [SqlSelection.columns_push, SqlSelection.columns_ofItems]

/-- A query of drafted items with a position behind them, and nothing behind its label. -/
theorem exists_plainQuery
    (each : List.Forall₂ (DraftsItem (before.Known nulls used)) sqls after.columns)
    (isItem : position.symbols = item.symbols) (isPosition : item.IsPosition)
    (from_ : inner.symbols = relation.symbols) (label : Nat) :
    ∃ next : SqlRelation,
      (Sql.selectFrom (Sql.separated ", " sqls ++ Sql.words ", " ++ position) inner
        (Sql.words ("t" ++ toString label))).symbols = next.symbols ∧
          relation.Leads nulls used before after next := by
  obtain ⟨next, symbols, leads⟩ := exists_query each isItem isPosition from_ label .all
  exact ⟨next, (List.append_nil _).symm.trans symbols, leads⟩

/-- Columns under their own names. -/
theorem draftsItem_columns {known : SqlContext → Prop} {columns : List Column}
    (each : ∀ column ∈ columns, DraftsItem known (Sql.name column.name) column) :
    List.Forall₂ (DraftsItem known) ((columns.map (·.name)).map Sql.name) columns := by
  rw [List.forall₂_map_left_iff, List.forall₂_map_left_iff, List.forall₂_same]
  exact each

end Selections

/-! ## Operations -/

namespace Verb

/-- The types that nulls are cast to in what an operation computes. -/
def nullTypes : Verb → List CellType
  | mutate assignments => assignments.flatMap (·.2.nullTypes)
  | summarise aggregates => aggregates.flatMap (·.2.nullTypes)
  | window added => added.function.nullTypes
  | select _ | filter _ | groupBy _ | orderBy _ | rename _ => []

/-- A name that is assigned has an expression of the type of its column; a name that is not has
neither an expression nor a column. -/
theorem lookup_typed {schema : Schema} {assignments : List (String × Expr String)}
    {columns : List Column} (typed : Signature.assignedColumns schema assignments = .ok columns)
    (name : String) :
    (columns.find? (·.name = name) = none ∧ assignments.lookup name = none) ∨
      ∃ expr value, (name, expr) ∈ assignments ∧ assignments.lookup name = some expr ∧
        expr.infer schema .mutate = .ok value ∧
        columns.find? (·.name = name) = some (value.column name) := by
  rw [Signature.assignedColumns, mapM_eq_ok] at typed
  induction typed with
  | nil => exact .inl ⟨rfl, rfl⟩
  | @cons assigned column rest columns typed _ ih =>
    obtain ⟨assignedName, expr⟩ := assigned
    simp only [bind_eq_ok, pure_eq_ok] at typed
    obtain ⟨value, typed, rfl⟩ := typed
    by_cases same : assignedName = name
    · subst same
      refine .inr ⟨expr, value, .head _, List.lookup_cons_self, typed, ?_⟩
      exact List.find?_cons_of_pos (decide_eq_true rfl)
    · have other : (value.column assignedName).name ≠ name := same
      rw [List.find?_cons_of_neg (by simpa using other), List.lookup_cons,
        beq_false_of_ne (Ne.symm same)]
      rcases ih with absent | ⟨expr', value', member, found, typed', listed⟩
      · exact .inl absent
      · exact .inr ⟨expr', value', .tail _ member, found, typed', listed⟩

variable {before after : Signature} {inner sql : Sql} {relation : SqlRelation}
  {draft draft' : SqlDraft}

/-- What the query of an operation is over the query of the rows before it. -/
abbrev DraftedAs (verb : Verb) (before after : Signature) (relation : SqlRelation)
    (draft draft' : SqlDraft) (sql : Sql) : Prop :=
  draft.parameters <+: draft'.parameters ∧ ∃ next : SqlRelation, sql.symbols = next.symbols ∧
    relation.Leads verb.nullTypes draft'.parameters before.schema after.schema next

/-- A selection is a query of its columns. -/
theorem drafted_select {columns : List String}
    (applied : before.apply (.select columns) = .ok after)
    (from_ : inner.symbols = relation.symbols)
    (drafted : (select columns).draft .sqlite .bound before after.schema.names inner draft =
      .ok (sql, draft')) : (select columns).DraftedAs before after relation draft draft' sql := by
  have known := Schema.columns_of_select (Signature.schema_of_select applied)
  rw [mapM_eq_ok] at known
  simp only [Verb.draft, Drafting.bind_eq_ok, Drafting.newAlias_eq, Drafting.pure_eq_ok,
    Except.ok.injEq, Prod.mk.injEq] at drafted
  obtain ⟨_, _, ⟨rfl, rfl⟩, rfl, rfl⟩ := drafted
  have each : List.Forall₂ (DraftsItem (before.schema.Known [] draft.parameters))
      (after.schema.names.map Sql.name) after.schema.columns := by
    refine draftsItem_columns fun column member => ?_
    obtain ⟨name, _, isColumn⟩ := exists_of_mem_right known member
    rw [Schema.resolveColumn_eq_ok] at isColumn
    have named : column.name = name := by simpa using List.find?_some isColumn
    rw [named]
    exact (draftsItem_column isColumn).mono fun _ known => known.2
  obtain ⟨items, symbols, gives⟩ := exists_items each
  refine ⟨List.prefix_rfl, .query (.ofItems (items ++ [.ofColumn positionColumn])) relation _ .all,
    Sql.symbols_selectAll ?_ from_ _,
    SqlRelation.leads_query gives SqlItem.isPosition_ofColumn (fun type all => ?_) _ _⟩
  · rw [Sql.names, Sql.symbols_separated, List.map_append, List.map_append, symbols,
      SqlSelection.symbols_ofItems, List.map_append]
    rfl
  · rw [SqlSelection.columns_ofItems, List.flatMap_append, List.flatMap_singleton]

/-- An assignment is a query of the assigned expressions and of the other columns. -/
theorem drafted_mutate {assignments : List (String × Expr String)}
    (applied : before.apply (.mutate assignments) = .ok after)
    (from_ : inner.symbols = relation.symbols)
    (drafted : (mutate assignments).draft .sqlite .bound before after.schema.names inner draft =
      .ok (sql, draft')) :
    (mutate assignments).DraftedAs before after relation draft draft' sql := by
  obtain ⟨_, _, columns, typed, schema, assigned, rfl⟩ := Signature.apply_mutate.mp applied
  simp only [Verb.draft, Drafting.bind_eq_ok, Drafting.newAlias_eq, Drafting.pure_eq_ok,
    Except.ok.injEq, Prod.mk.injEq] at drafted
  obtain ⟨sqls, middle, itemsDrafted, _, _, ⟨rfl, rfl⟩, rfl, rfl⟩ := drafted
  suffices listed : draft.parameters <+: middle.parameters ∧ List.Forall₂ (DraftsItem
      (·.Knows (mutate assignments).nullTypes middle.parameters before.schema)) sqls
      schema.columns by
    obtain ⟨grown, items⟩ := listed
    exact ⟨grown, exists_plainQuery (items.imp fun _ _ item => item.mono fun _ known => known.2) rfl
      SqlItem.isPosition_ofColumn from_ _⟩
  refine Drafting.draftsItems ?_ itemsDrafted
  rw [Schema.names, List.forall₂_map_left_iff, List.forall₂_same]
  intro column member draft draft' sql drafted
  rcases lookup_typed typed column.name with
    ⟨absent, unassigned⟩ | ⟨expr, value, isAssigned, found, exprTyped, isColumn⟩
  · rw [unassigned] at drafted
    simp only [Drafting.pure_eq_ok, Prod.mk.injEq] at drafted
    obtain ⟨rfl, rfl⟩ := drafted
    rcases Schema.mem_columns_assign assigned member with isColumn | ⟨_, isColumn⟩
    · rw [absent] at isColumn
      cases isColumn
    · exact ⟨List.prefix_rfl, draftsItem_column isColumn⟩
  · rw [found] at drafted
    simp only [Drafting.bind_eq_ok, Drafting.pure_eq_ok, Prod.mk.injEq] at drafted
    obtain ⟨exprSql, _, exprDrafted, rfl, rfl⟩ := drafted
    have same : column = value.column column.name := by
      rcases Schema.mem_columns_assign assigned member with isColumn' | ⟨absent, _⟩
      · exact Option.some.inj (isColumn'.symm.trans isColumn)
      · rw [absent] at isColumn
        cases isColumn
    obtain ⟨grown, drafts⟩ := expr.drafted exprTyped exprDrafted
    refine ⟨grown, ?_⟩
    have item := (drafts.named column.name).mono fun context
        (knows : context.Knows (mutate assignments).nullTypes _ before.schema) =>
      knows.mono (fun _ cast => List.mem_flatMap.mpr ⟨_, isAssigned, cast⟩) List.prefix_rfl
    rwa [← same] at item

/-- A filter is a query of all columns, under a condition. -/
theorem drafted_filter {predicate : Expr String}
    (applied : before.apply (.filter predicate) = .ok after)
    (from_ : inner.symbols = relation.symbols)
    (drafted : (filter predicate).draft .sqlite .bound before after.schema.names inner draft =
      .ok (sql, draft')) : (filter predicate).DraftedAs before after relation draft draft' sql := by
  obtain ⟨_, ⟨value, typed, _⟩, rfl⟩ := Signature.apply_filter.mp applied
  simp only [Verb.draft, Drafting.bind_eq_ok, Drafting.newAlias_eq, Drafting.pure_eq_ok,
    Except.ok.injEq, Prod.mk.injEq] at drafted
  obtain ⟨condition, middle, conditionDrafted, _, _, ⟨rfl, rfl⟩, rfl, rfl⟩ := drafted
  obtain ⟨grown, term, symbols, _⟩ := predicate.drafted typed conditionDrafted
  have star : (Sql.words "*").symbols =
      (SqlSelection.ofItems [.plain (.atom .star)]).symbols := rfl
  refine ⟨grown, .query (.ofItems [.plain (.atom .star)]) relation (middle.aliases + 1)
    (.filtered term), ?_, ?_⟩
  · rw [← Sql.symbols_selectFrom star from_]
    simp [symbols, SqlTail.word, SqlTail.payload]
  · intro view parameters tables _ _ _ shown
    rw [SqlRelation.columns, SqlSelection.columns_ofItems]
    simpa [SqlItem.columns] using shown

/-- The items of a summary are its groups and its aggregates. -/
theorem draftsItems_summarise {aggregates : List (String × Aggregate)}
    (applied : before.apply (.summarise aggregates) = .ok after) {sqls : List Sql}
    (drafted : aggregates.mapM (fun (column, aggregate) => do
      return (← aggregate.draft .sqlite .bound before.schema).named column : _ → Drafting Sql)
        draft = .ok (sqls, draft')) :
    draft.parameters <+: draft'.parameters ∧ List.Forall₂
      (DraftsItem (before.schema.Known (summarise aggregates).nullTypes draft'.parameters))
      (before.groups.map Sql.name ++ sqls) after.schema.columns := by
  obtain ⟨keys, values, known, typed, listed⟩ :=
    Signature.columns_of_summarise (Signature.schema_of_summarise applied)
  have eachValue : List.Forall₂ (fun (assigned : String × Aggregate) column =>
      ∀ {draft draft' : SqlDraft} {sql : Sql},
      (do return (← assigned.2.draft .sqlite .bound before.schema).named assigned.1 : Drafting Sql)
        draft = .ok (sql, draft') →
      draft.parameters <+: draft'.parameters ∧ DraftsItem (·.Knows (summarise aggregates).nullTypes
        draft'.parameters before.schema) sql column) aggregates values := by
    refine forall₂_of_mem typed fun assigned isAssigned column typed => ?_
    obtain ⟨value, typed, rfl⟩ := typed
    intro draft draft' sql drafted
    simp only [Drafting.bind_eq_ok, Drafting.pure_eq_ok, Prod.mk.injEq] at drafted
    obtain ⟨_, _, aggregateDrafted, rfl, rfl⟩ := drafted
    obtain ⟨grown, drafts⟩ := Aggregate.drafted typed aggregateDrafted
    refine ⟨grown, (drafts.named assigned.1).mono fun context knows => ?_⟩
    exact knows.mono (fun _ cast => List.mem_flatMap.mpr ⟨_, isAssigned, cast⟩) List.prefix_rfl
  obtain ⟨grown, valueItems⟩ := Drafting.draftsItems eachValue drafted
  rw [mapM_eq_ok] at known
  refine ⟨grown, ?_⟩
  rw [listed]
  refine List.rel_append (List.forall₂_map_left_iff.mpr (known.imp fun _ _ isColumn => ?_))
    (valueItems.imp fun _ _ item => item.mono fun _ known => known.2)
  exact (draftsItem_column (Schema.resolveColumn_eq_ok.mp isColumn)).mono fun _ known => known.2

/-- A summary is a query of the groups and of the aggregates. -/
theorem drafted_summarise {aggregates : List (String × Aggregate)}
    (applied : before.apply (.summarise aggregates) = .ok after)
    (from_ : inner.symbols = relation.symbols)
    (drafted : (summarise aggregates).draft .sqlite .bound before after.schema.names inner draft =
      .ok (sql, draft')) :
    (summarise aggregates).DraftedAs before after relation draft draft' sql := by
  simp only [Verb.draft, Drafting.bind_eq_ok, Drafting.newAlias_eq, Except.ok.injEq,
    Prod.mk.injEq] at drafted
  obtain ⟨sqls, middle, valuesDrafted, _, _, ⟨rfl, rfl⟩, drafted⟩ := drafted
  obtain ⟨grown, each⟩ := draftsItems_summarise applied valuesDrafted
  split at drafted
  · simp only [Drafting.pure_eq_ok, Prod.mk.injEq] at drafted
    obtain ⟨rfl, rfl⟩ := drafted
    have zero : ((Sql.words "0").named positionColumn).symbols =
        (SqlItem.named (.atom (.ofInt 0)) positionColumn).symbols := rfl
    exact ⟨grown, exists_plainQuery each zero (SqlItem.isPosition_named _) from_ _⟩
  · simp only [Drafting.pure_eq_ok, Prod.mk.injEq] at drafted
    obtain ⟨rfl, rfl⟩ := drafted
    have first : ((Sql.call "MIN" [Sql.position]).named positionColumn).symbols =
        (SqlItem.named (.call .min [.column ⟨none, positionColumn⟩]) positionColumn).symbols := rfl
    obtain ⟨next, symbols, leads⟩ := exists_query each first (SqlItem.isPosition_named _) from_
      (middle.aliases + 1) (.grouped before.groups)
    refine ⟨grown, next, ?_, leads⟩
    rw [← symbols]
    simp [SqlTail.word, SqlTail.payload, commaSymbols, Function.comp_def]

/-- The number of a row in an order is a term. -/
theorem symbols_rowNumber {terms : List Sql} {order : List OrderTerm}
    (listed : terms.map Sql.symbols = order.map OrderTerm.symbols) :
    (Sql.words "ROW_NUMBER() OVER (ORDER BY " ++ Sql.separated ", " terms ++
      Sql.words ")").symbols = (SqlTerm.windowed .rowNumber [] ⟨[], order⟩).symbols := by
  have opening : wordSymbols "ROW_NUMBER() OVER (ORDER BY " = wordSymbols "ROW_NUMBER" ++
      (wordSymbols "(" ++ (wordSymbols ") OVER (" ++ wordSymbols "ORDER BY ")) := rfl
  rw [SqlTerm.symbols, SqlWindow.symbols]
  simp [opening, listed, commaSymbols, SqlTerm.symbolsAll, SqlWindowFunction.name]

/-- An ordering is a query of all columns, with a new position. -/
theorem drafted_orderBy {keys : List OrderKey}
    (applied : before.apply (.orderBy keys) = .ok after) (from_ : inner.symbols = relation.symbols)
    (drafted : (orderBy keys).draft .sqlite .bound before after.schema.names inner draft =
      .ok (sql, draft')) : (orderBy keys).DraftedAs before after relation draft draft' sql := by
  obtain ⟨_, _, _, rfl⟩ := Signature.apply_orderBy.mp applied
  simp only [Verb.draft, Drafting.bind_eq_ok, Drafting.newAlias_eq, Drafting.pure_eq_ok,
    Except.ok.injEq, Prod.mk.injEq] at drafted
  obtain ⟨_, _, ⟨rfl, rfl⟩, rfl, rfl⟩ := drafted
  have each : List.Forall₂ (DraftsItem (after.schema.Known (orderBy keys).nullTypes
      draft.parameters)) (after.schema.names.map Sql.name) after.schema.columns := by
    refine draftsItem_columns fun column member => ?_
    refine ⟨.ofColumn column.name, rfl, fun context known all => ?_⟩
    have isColumn := find?_name_of_mem known.1 member
    exact congrArg (fun type => [(column.name, type)]) (known.2.columns isColumn)
  have order : (keys.map Sql.orderTerm ++ [Sql.position]).map Sql.symbols =
      (keys.map OrderTerm.key ++ [OrderTerm.position ⟨none, positionColumn⟩]).map
        OrderTerm.symbols := by
    rw [List.map_append, List.map_append, List.map_map, List.map_map]
    exact congrArg (· ++ _) (List.map_congr_left fun key _ => Sql.symbols_orderTerm key)
  have number := congrArg (· ++ (wordSymbols " AS " ++ [.name positionColumn]))
    (symbols_rowNumber order)
  rw [← Sql.symbols_named] at number
  exact ⟨List.prefix_rfl, exists_plainQuery each number (SqlItem.isPosition_named _) from_ _⟩

/-- A window function is a query of its value and of the other columns. -/
theorem drafted_window {added : Window} (applied : before.apply (.window added) = .ok after)
    (from_ : inner.symbols = relation.symbols)
    (drafted : (window added).draft .sqlite .bound before after.schema.names inner draft =
      .ok (sql, draft')) : (window added).DraftedAs before after relation draft draft' sql := by
  obtain ⟨_, _, type, typed, assigned⟩ := Signature.schema_of_window applied
  simp only [Verb.draft, Drafting.bind_eq_ok, Drafting.newAlias_eq, Drafting.pure_eq_ok,
    Except.ok.injEq, Prod.mk.injEq] at drafted
  obtain ⟨value, middle, valueDrafted, _, _, ⟨rfl, rfl⟩, rfl, rfl⟩ := drafted
  obtain ⟨grown, drafts⟩ := Window.drafted typed valueDrafted
  have each : List.Forall₂ (DraftsItem (before.schema.Known (window added).nullTypes
      middle.parameters)) (after.schema.names.map fun column =>
        if column = added.name then (value ++ Sql.windowClause added).named column
        else Sql.name column) after.schema.columns := by
    rw [Schema.names, List.map_map, List.forall₂_map_left_iff, List.forall₂_same]
    intro column member
    have assignedColumn : [type.column added.name].find? (·.name = column.name) =
        if column.name = added.name then some (type.column added.name) else none := by
      simp [List.find?_singleton, ValueType.column, eq_comm]
    have inAfter := Schema.mem_columns_assign assigned member
    rw [assignedColumn] at inAfter
    by_cases isAdded : column.name = added.name
    · have same : type.column added.name = column := by simpa [isAdded] using inAfter
      have item := (drafts.named added.name).mono fun _
        (known : before.schema.Known (window added).nullTypes middle.parameters _) => known.2
      rw [same] at item
      simpa [isAdded] using item
    · have isColumn : before.schema.column? column.name = some column := by
        simpa [isAdded] using inAfter
      simpa [isAdded] using (draftsItem_column isColumn).mono fun _
        (known : before.schema.Known (window added).nullTypes middle.parameters _) => known.2
  exact ⟨grown, exists_plainQuery each rfl SqlItem.isPosition_ofColumn from_ _⟩

/-- The query of an operation is a relation over the rows before it. -/
theorem drafted {verb : Verb} (applied : before.apply verb = .ok after)
    (from_ : inner.symbols = relation.symbols)
    (drafted : verb.draft .sqlite .bound before after.schema.names inner draft =
      .ok (sql, draft')) : verb.DraftedAs before after relation draft draft' sql := by
  have unchanged {verb : Verb} (same : after.schema = before.schema)
      (drafted : (pure inner : Drafting Sql) draft = .ok (sql, draft')) :
      verb.DraftedAs before after relation draft draft' sql := by
    simp only [Drafting.pure_eq_ok, Prod.mk.injEq] at drafted
    obtain ⟨rfl, rfl⟩ := drafted
    exact ⟨List.prefix_rfl, relation, from_, fun _ _ _ shown => same ▸ shown⟩
  cases verb with
  | select columns => exact drafted_select applied from_ drafted
  | mutate assignments => exact drafted_mutate applied from_ drafted
  | filter predicate => exact drafted_filter applied from_ drafted
  | groupBy columns => exact unchanged (Signature.schema_of_groupBy applied) drafted
  | summarise aggregates => exact drafted_summarise applied from_ drafted
  | orderBy keys => exact drafted_orderBy applied from_ drafted
  | window added => exact drafted_window applied from_ drafted
  | rename name => exact unchanged (Signature.schema_of_rename applied) drafted

end Verb

end TablePipeline

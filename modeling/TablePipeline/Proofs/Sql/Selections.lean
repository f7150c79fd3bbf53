import TablePipeline.Proofs.Sql.Drafts

/-! # Selections are drafted as the columns of a schema

A step is compiled to a query that selects one item for every column after it, and the position of
the row. What is read of the types of the items are the types of the columns, wherever what the
items are written over is known.
-/

namespace TablePipeline

/-! ## Items and selections -/

namespace SqlItem

/-- The item of a column under its own name. -/
def ofColumn (column : String) : SqlItem :=
  .plain (.column ⟨none, column⟩)

@[simp]
theorem symbols_ofColumn (column : String) : (ofColumn column).symbols = [.name column] :=
  rfl

/-- Does an item give the position of the row? -/
def IsPosition (item : SqlItem) : Prop :=
  ∀ type all, ∃ found, item.columns type all = [(positionColumn, found)]

theorem isPosition_ofColumn : (ofColumn positionColumn).IsPosition :=
  fun _ _ => ⟨_, rfl⟩

theorem isPosition_named (term : SqlTerm) : (named term positionColumn).IsPosition :=
  fun _ _ => ⟨_, rfl⟩

end SqlItem

namespace SqlSelection

/-- The selection of some items. No items leave a blank. -/
def ofItems (items : List SqlItem) : SqlSelection where
  items := if items.isEmpty then [.blank] else items
  nonempty := by
    split
    · exact List.cons_ne_nil _ _
    · rename_i more
      simpa using more

/-- The selection with one more item. -/
def push (selection : SqlSelection) (item : SqlItem) : SqlSelection where
  items := selection.items ++ [item]
  nonempty := by simp

variable {type : SqlTerm → CellType} {all : List (String × CellType)}

theorem symbols_ofItems (items : List SqlItem) :
    (ofItems items).symbols = commaSymbols (items.map SqlItem.symbols) := by
  rw [symbols, ofItems]
  cases items with
  | nil => rfl
  | cons first rest => rfl

theorem columns_ofItems (items : List SqlItem) :
    (ofItems items).columns type all = items.flatMap (SqlItem.columns type all) := by
  rw [columns, ofItems]
  cases items with
  | nil => rfl
  | cons first rest => rfl

theorem symbols_push (selection : SqlSelection) (item : SqlItem) :
    (selection.push item).symbols = selection.symbols ++ (wordSymbols ", " ++ item.symbols) := by
  obtain ⟨items, nonempty⟩ := selection
  simp only [symbols, push]
  induction items with
  | nil => exact absurd rfl nonempty
  | cons first rest ih =>
    cases rest with
    | nil => simp [commaSymbols, List.intercalate_cons_cons]
    | cons next rest =>
      have others := ih (List.cons_ne_nil _ _)
      simp only [commaSymbols, List.cons_append, List.map_cons, List.intercalate_cons_cons,
        List.append_assoc] at others ⊢
      rw [others]

theorem columns_push (selection : SqlSelection) (item : SqlItem) :
    (selection.push item).columns type all =
      selection.columns type all ++ item.columns type all := by
  simp [columns, push]

end SqlSelection

/-! ## Drafted items -/

/-- Is a part of a query the symbols of an item that gives a column, where the context is known? -/
def DraftsItem (known : SqlContext → Prop) (sql : Sql) (column : Column) : Prop :=
  ∃ item : SqlItem, sql.symbols = item.symbols ∧ ∀ context, known context → ∀ all,
    item.columns (SqlTerm.type context) all = [(column.name, context.view.see column.type)]

variable {known known' : SqlContext → Prop} {sql : Sql} {column : Column}

theorem DraftsItem.mono (drafts : DraftsItem known sql column)
    (more : ∀ context, known' context → known context) : DraftsItem known' sql column := by
  obtain ⟨item, symbols, gives⟩ := drafts
  exact ⟨item, symbols, fun context knows => gives context (more context knows)⟩

theorem Sql.symbols_named (sql : Sql) (name : String) :
    (sql.named name).symbols = sql.symbols ++ (wordSymbols " AS " ++ [.name name]) := by
  simp [named]

/-- A term of a type under a name gives a column of the type. -/
theorem DraftsTerm.named {nulls : List CellType} {used : List Cell} {schema : Schema}
    {value : ValueType} (drafts : DraftsTerm nulls used schema sql value.type) (name : String) :
    DraftsItem (·.Knows nulls used schema) (sql.named name) (value.column name) := by
  obtain ⟨term, symbols, has⟩ := drafts
  refine ⟨.named term name, by rw [Sql.symbols_named, symbols]; rfl, fun context knows all => ?_⟩
  rw [SqlItem.columns, has context knows]
  rfl

/-- A known column gives itself. -/
theorem draftsItem_column {nulls : List CellType} {used : List Cell} {schema : Schema}
    {name : String} (isColumn : schema.column? name = some column) :
    DraftsItem (·.Knows nulls used schema) (Sql.name name) column := by
  have named : column.name = name := by simpa using List.find?_some isColumn
  refine ⟨.ofColumn name, rfl, fun context knows all => ?_⟩
  rw [SqlItem.ofColumn, SqlItem.columns, named]
  exact congrArg (fun type => [(name, type)]) (knows.columns isColumn)

/-- Items that give columns one by one give all of them. -/
theorem exists_items {sqls : List Sql} {columns : List Column}
    (drafts : List.Forall₂ (DraftsItem known) sqls columns) :
    ∃ items : List SqlItem, sqls.map Sql.symbols = items.map SqlItem.symbols ∧
      ∀ context, known context → ∀ all, items.flatMap (SqlItem.columns (SqlTerm.type context) all) =
        columns.map fun column => (column.name, context.view.see column.type) := by
  induction drafts with
  | nil => exact ⟨[], rfl, fun _ _ _ => rfl⟩
  | cons first _ ih =>
    obtain ⟨item, symbols, gives⟩ := first
    obtain ⟨items, others, giveOthers⟩ := ih
    refine ⟨item :: items, by rw [List.map_cons, List.map_cons, symbols, others], ?_⟩
    intro context knows all
    rw [List.flatMap_cons, gives context knows, giveOthers context knows]
    rfl

/-- Items are drafted one after the other, each with parameters behind those in use. -/
theorem Drafting.draftsItems {α : Type} {f : α → Drafting Sql} {items : List α}
    {columns : List Column} {nulls : List CellType} {schema : Schema}
    (each : List.Forall₂ (fun item column => ∀ {draft draft' : SqlDraft} {sql : Sql},
      f item draft = .ok (sql, draft') → draft.parameters <+: draft'.parameters ∧
        DraftsItem (·.Knows nulls draft'.parameters schema) sql column) items columns)
    {draft draft' : SqlDraft} {sqls : List Sql}
    (drafted : items.mapM f draft = .ok (sqls, draft')) :
    draft.parameters <+: draft'.parameters ∧
      List.Forall₂ (DraftsItem (·.Knows nulls draft'.parameters schema)) sqls columns := by
  induction each generalizing draft sqls with
  | nil =>
    cases drafted
    exact ⟨List.prefix_rfl, .nil⟩
  | cons first _ ih =>
    simp only [List.mapM_cons, Drafting.bind_eq_ok, Drafting.pure_eq_ok, Prod.mk.injEq] at drafted
    obtain ⟨sql, _, firstDrafted, others, _, othersDrafted, rfl, rfl⟩ := drafted
    obtain ⟨grown, gives⟩ := first firstDrafted
    obtain ⟨grown', giveOthers⟩ := ih othersDrafted
    refine ⟨grown.trans grown', .cons (gives.mono fun context knows => ?_) giveOthers⟩
    exact knows.mono (List.Subset.refl _) grown'

/-! ## Drafted selections -/

/-- Does a relation give the columns of a schema, and then the positions of its rows? -/
def Schema.ShownIn (schema : Schema) (view : SqlView) (columns : List (String × CellType)) : Prop :=
  ∃ type, columns = schema.seen view ++ [(positionColumn, type)]

/-- What a query over a relation that gives the columns of a schema is known to be written over. -/
theorem Schema.ShownIn.knows {schema : Schema} {view : SqlView}
    {columns : List (String × CellType)} (shown : schema.ShownIn view columns)
    {nulls : List CellType} (admits : view.Admits nulls) {used parameters : List Cell}
    (inUse : used <+: parameters) :
    SqlContext.Knows ⟨view, parameters, fun reference => columnType columns reference.column⟩
      nulls used schema := by
  obtain ⟨_, rfl⟩ := shown
  exact ⟨admits, inUse, fun isColumn => Schema.columnType_seen isColumn _⟩

/-- Items that give the columns of a schema, and a position behind them, give a relation of the
schema. -/
theorem Schema.shownIn_append {schema : Schema} {context : SqlContext} {item : SqlItem}
    (isPosition : item.IsPosition) {given all : List (String × CellType)}
    (gives : given = schema.columns.map fun column =>
      (column.name, context.view.see column.type)) :
    schema.ShownIn context.view (given ++ item.columns (SqlTerm.type context) all) := by
  obtain ⟨found, position⟩ := isPosition (SqlTerm.type context) all
  exact ⟨found, by rw [gives, position, seen]⟩

end TablePipeline

import TablePipeline.Proofs.Sql.Relations

/-! # The types of terms and relations

A compiled query says little about types: SQLite stores truth values as integers, and the types of
columns are those of the tables that are read. Given the tables and the values of the parameters,
the type of every term can be read off the query all the same, except that of a null that is cast to
a type stored as an integer. What is read of truth values is a choice: their own type, or the one
under which they are stored.
-/

namespace TablePipeline

/-- What is read of types that are stored as integers. -/
structure SqlView where
  /-- Are truth values told from integers? -/
  exact : Bool
  /-- The type that is read of a null. -/
  null : CellType

namespace SqlView

/-- What is read of a type. -/
def see (view : SqlView) : CellType → CellType
  | .bool => if view.exact then .bool else .int
  | type => type

variable {view : SqlView} {types types' : List CellType}

/-- Numbers of two types are told apart, and are doubles together. -/
theorem see_of_widest? (view : SqlView) {type next wider : CellType}
    (different : next ≠ type) (isWider : type.widest? next = some wider) :
    view.see next ≠ view.see type ∧ wider = .float := by
  have float : wider = .float := by
    revert different isWider
    cases type <;> cases next <;> simp [CellType.widest?] <;> exact Eq.symm
  revert different isWider
  cases type <;> cases next <;> simp [CellType.widest?, see, float]

/-- Is what is read of a null the type of all nulls that are cast to these types, where it does not
show in the query? -/
def Admits (view : SqlView) (types : List CellType) : Prop :=
  ∀ type ∈ types, type.storage = .integer → view.see type = view.null

theorem Admits.mono (admits : view.Admits types) (less : types' ⊆ types) : view.Admits types' :=
  fun type member => admits type (less member)

/-- The view that tells truth values admits nulls of one type. -/
theorem admits_exact {null : CellType}
    (same : ∀ type ∈ types, type.storage = .integer → type = null) :
    SqlView.Admits ⟨true, null⟩ types := by
  intro type member stored
  obtain rfl := same type member stored
  cases type <;> rfl

end SqlView

/-- What the types of terms are read from. -/
structure SqlContext where
  view : SqlView
  parameters : List Cell
  /-- The types of the columns that are in scope. -/
  columnType : SqlReference → CellType

/-- The common type of values of some types. -/
def commonType : List CellType → CellType
  | [] => .int
  | first :: rest => rest.foldl (fun type next => if next = type then type else .float) first

namespace SqlTerm

variable (context : SqlContext)

mutual

/-- The type of a term, as far as it can be read. -/
def type : SqlTerm → CellType
  | column reference => context.columnType reference
  | parameter number =>
    context.view.see ((context.parameters[number - 1]?.bind Cell.type?).getD .int)
  | atom word => if word.text = "NULL" then context.view.null else .int
  | cast operand .integer => if operand.type = .bool then .bool else .int
  | cast _ .real => .float
  | cast _ .text => .text
  | truth _ => .int
  | binary (.arithmetic op) left right =>
    if op = .divide ∨ left.type = .float ∨ right.type = .float then .float else .int
  | binary (.comparison _) _ _ | binary (.logical _) _ _ => context.view.see .bool
  | unary .negate operand => operand.type
  | unary _ _ => context.view.see .bool
  | call .trim _ => .text
  | call .count _ => .int
  | call .round _ | call .avg _ | rounded _ _ => .float
  | call _ arguments => commonType (types arguments)
  | windowed .rowNumber _ _ | windowed .rank _ _ => .int
  | windowed _ [] _ => .int
  | windowed _ (argument :: _) _ => argument.type

@[inherit_doc type]
def types : List SqlTerm → List CellType
  | [] => []
  | first :: rest => first.type :: types rest

end

end SqlTerm

/-! ## Columns -/

/-- The type of a column among some columns. -/
def columnType (columns : List (String × CellType)) (name : String) : CellType :=
  (columns.lookup name).getD .int

/-- The columns that an item gives, with the types that are read of them, where `all` are the
columns that it may select. -/
def SqlItem.columns (type : SqlTerm → CellType) (all : List (String × CellType)) :
    SqlItem → List (String × CellType)
  | blank => []
  | plain (.column reference) => [(reference.column, type (.column reference))]
  | plain _ => all
  | named term column => [(column, type term)]

/-- The columns that a selection gives. -/
def SqlSelection.columns (type : SqlTerm → CellType) (all : List (String × CellType))
    (selection : SqlSelection) : List (String × CellType) :=
  selection.items.flatMap (SqlItem.columns type all)

/-- The columns that a relation gives, with the types that are read of them. A table is read as a
whole, with the positions of its rows. -/
def SqlRelation.columns (view : SqlView) (parameters : List Cell)
    (tables : String → List (String × CellType)) : SqlRelation → List (String × CellType)
  | table _ source => tables source ++ [(positionColumn, .int)]
  | query selection inner _ _ =>
    let before := inner.columns view parameters tables
    selection.columns (SqlTerm.type ⟨view, parameters, fun reference =>
      columnType before reference.column⟩) before
  | join selection left leftLabel _ right _ _ =>
    let before := left.columns view parameters tables
    let joined := right.columns view parameters tables
    selection.columns (SqlTerm.type ⟨view, parameters, fun reference =>
      columnType (if reference.label = some leftLabel then before else joined) reference.column⟩) []

/-! ## Schemas -/

namespace Schema

/-- The names and the types of the columns of a schema, as they are read. -/
def seen (schema : Schema) (view : SqlView) : List (String × CellType) :=
  schema.columns.map fun column => (column.name, view.see column.type)

variable {schema schema' : Schema} {view : SqlView}

/-- A column is found among those of its schema, whatever stands behind them. -/
theorem columnType_seen {name : String} {column : Column}
    (known : schema.column? name = some column) (more : List (String × CellType)) :
    columnType (schema.seen view ++ more) name = view.see column.type := by
  obtain ⟨columns, primaryKey, uniqueKeys⟩ := schema
  rw [columnType, seen]
  simp only [column?] at known ⊢
  induction columns with
  | nil => cases known
  | cons first columns ih =>
    rw [List.map_cons, List.cons_append, List.lookup_cons]
    by_cases same : first.name = name
    · rw [List.find?_cons_of_pos (by simpa using same)] at known
      cases known
      rw [beq_iff_eq.mpr same.symm]
      rfl
    · rw [List.find?_cons_of_neg (by simpa using same)] at known
      rw [beq_false_of_ne (Ne.symm same)]
      exact ih known

end Schema

/-- What a context knows when an expression over a schema is written: all values of the parameters
that are used so far, and the columns of the schema. -/
structure SqlContext.Knows (context : SqlContext) (nulls : List CellType) (used : List Cell)
    (schema : Schema) : Prop where
  admits : context.view.Admits nulls
  parameters : used <+: context.parameters
  columns : ∀ {name : String} {column : Column}, schema.column? name = some column →
    context.columnType ⟨none, name⟩ = context.view.see column.type

theorem SqlContext.Knows.mono {context : SqlContext} {nulls nulls' : List CellType}
    {used used' : List Cell} {schema : Schema} (knows : context.Knows nulls used schema)
    (less : nulls' ⊆ nulls) (fewer : used' <+: used) : context.Knows nulls' used' schema :=
  ⟨knows.admits.mono less, fewer.trans knows.parameters, knows.columns⟩

end TablePipeline

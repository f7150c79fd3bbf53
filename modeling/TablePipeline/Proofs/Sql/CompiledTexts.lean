import TablePipeline.Proofs.Chain.NormalForm
import TablePipeline.Proofs.Sql.ChainQueries

/-! # What the texts of compiled queries tell

Chains that are compiled for SQLite to one text have the same parameters and the same column names,
and on the same inputs columns that are stored in the same way. What a text does not tell is the
type of a null that is cast to a type stored as an integer. If all such nulls of two chains are cast
to one type, their results have one shape.
-/

namespace TablePipeline

/-! ## Inputs -/

/-- Is every source bound to a table of its shape, with different column names? -/
def Inputs.Binds (inputs : Inputs) (sources : Dictionary String Schema) : Prop :=
  ∀ entry ∈ sources.entries, ∃ table, inputs.source entry.1 entry.2 = .ok table ∧
    table.schema.names.Nodup

/-- The columns of the table of a name, as they are read. -/
def Inputs.seen (inputs : Inputs) (view : SqlView) (name : String) : List (String × CellType) :=
  ((inputs.find? name).map (·.schema.seen view)).getD []

namespace Chain

variable {chain chain' next first last : Chain} {known known' : Signature}
  {query query' : CompiledQuery}

/-! ## Nulls of a plan -/

/-- Are the nulls that a chain casts to types stored as integers all cast to one type? -/
def CastsNullsTo (chain : Chain) (type : CellType) : Prop :=
  ∀ cast ∈ chain.nullTypes, Dialect.sqlite.typeName cast = "INTEGER" → cast = type

theorem CastsNullsTo.admits {type : CellType} (casts : chain.CastsNullsTo type) :
    SqlView.Admits ⟨true, type⟩ chain.nullTypes :=
  SqlView.admits_exact fun cast member stored => casts cast member (by
    cases cast with
    | bool | int => rfl
    | float | text => cases stored)

/-- An order. -/
def orderInputs : Inputs :=
  ⟨[("orders", ⟨"orders", ⟨[⟨"id", .int, false⟩], [], []⟩, [[.int 1]]⟩)]⟩

end Chain

end TablePipeline

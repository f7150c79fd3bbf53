import TablePipeline.Proofs.Sql.Following
import TablePipeline.Proofs.Sql.Tokens

/-! # Parameters stand for literals

Parameters are numbered in the order in which the literals of a chain are met, and the parts of a
query are put together in another order; some are written twice. Still every parameter in the text
of a compiled query stands where its value does in the query with literals in place.
-/

namespace TablePipeline

namespace SqlSymbol

/-- The symbol, or the value of the parameter that it is. A parameter without a value stays. -/
def settled (parameters : List Cell) : SqlSymbol → SqlSymbol
  | parameter number =>
    match parameters[number - 1]? with
    | some cell => value cell
    | none => parameter number
  | symbol => symbol

end SqlSymbol

namespace Sql

theorem parameter_mem_symbols {sql : Sql} {number : Nat} :
    SqlSymbol.parameter number ∈ sql.symbols ↔ number ∈ sql.parameterNumbers := by
  rw [symbols, parameterNumbers, List.mem_flatMap, List.mem_filterMap]
  refine exists_congr fun piece => and_congr_right fun _ => ?_
  cases piece <;> simp [SqlPiece.symbols, wordSymbols, eq_comm]

/-- The counterpart with literals in place has the values of the parameters where these stand. -/
theorem symbols_settled (parameters : List Cell) (sql : Sql) :
    Sql.symbols (sql.map (SqlPiece.counterpart id .inPlace parameters)) =
      sql.symbols.map (SqlSymbol.settled parameters) := by
  refine symbols_map (fun piece => ?_) sql
  cases piece with
  | words text =>
    rw [SqlPiece.counterpart, SqlPiece.symbols, wordSymbols, List.map_map]
    rfl
  | name quoted | value cell => rfl
  | parameter number =>
    rw [SqlPiece.counterpart, SqlPiece.symbols, List.map_singleton, SqlSymbol.settled]
    cases parameters[number - 1]? <;> rfl

end Sql

namespace Chain

/-- The parameters that are read from the text of a compiled query are numbered from one up to the
count of its values. With each replaced by its value, the symbols are those of the query with
literals in place. -/
theorem inlined_of_compile {chain : Chain} {dialect : Dialect} {query : CompiledQuery}
    (compiled : chain.compile dialect = .ok query) :
    let symbols := SqlSymbol.read dialect (query.sql.text dialect)
    (∀ number, .parameter number ∈ symbols ↔ 1 ≤ number ∧ number ≤ query.parameters.length) ∧
      ∃ inlined, chain.inlined dialect = .ok inlined ∧
        symbols.map (SqlSymbol.settled query.parameters) = inlined.symbols := by
  obtain ⟨inlined, _, written, _, part⟩ := exists_counterpart Function.injective_id rfl .inPlace
    (.inl rfl) compiled
  rw [renamed_id] at written
  intro symbols
  have isRead : symbols = query.sql.symbols := Sql.read_text part.legible part.unmarked dialect
  rw [isRead]
  refine ⟨fun number => ?_, inlined, ?_, ?_⟩
  · rw [Sql.parameter_mem_symbols, part.uses, Set.mem_Ioc, Nat.succ_le_iff]
  · rw [Chain.inlined, written]
    rfl
  · rw [part.pieces, Sql.symbols_settled]

/-- Orders that are marked beside the customers that are, with marks that are literals. -/
def markedOrders : Chain :=
  .join
    (.apply (.source "orders" ⟨[⟨"id", .int, false⟩, ⟨"customer", .int, true⟩], [], []⟩)
      (.mutate [("mark", .cast (.literal (.bool true)) .int)]))
    (.apply (.source "customers" ⟨[⟨"customer", .int, false⟩, ⟨"name?", .text, true⟩], [], []⟩)
      (.filter (.binary (.comparison .equal) (.column "name?") (.literal (.text "Ada")))))
    .inner [("customer", "customer")]

/-- The first parameter is written twice. -/
theorem inlined_markedOrders : ∃ query, markedOrders.compile .postgres = .ok query ∧
    query.parameters = [.bool true, .text "Ada"] ∧
    query.sql.parameterNumbers = [1, 1, 2] ∧
    let symbols := SqlSymbol.read .postgres (query.sql.text .postgres)
    (∀ number, .parameter number ∈ symbols ↔ 1 ≤ number ∧ number ≤ query.parameters.length) ∧
      ∃ inlined, markedOrders.inlined .postgres = .ok inlined ∧
        symbols.map (SqlSymbol.settled query.parameters) = inlined.symbols := by
  refine ⟨_, by cbv, rfl, rfl, ?_⟩
  exact @inlined_of_compile markedOrders .postgres _ (by cbv)

end Chain

end TablePipeline

import Mathlib.Logic.Equiv.Fintype
import TablePipeline.Proofs.Sql.Following
import TablePipeline.Proofs.Sql.Tokens

/-! # Queries of renamed chains

A chain is written under new names as it is written, with the new names between the quotes. It does
not matter what the names look like. Only the names that stand in the chain need to stay different,
as every other name can be moved out of the way; for the same reason no other name gets into its
query.
-/

namespace TablePipeline

namespace SqlSymbol

/-- The symbol, with a new name if it is a name. -/
def renamed (rename : String → String) : SqlSymbol → SqlSymbol
  | name quoted => name (rename quoted)
  | symbol => symbol

variable {symbols : List SqlSymbol}

/-- Names can be read whatever they are. -/
theorem Legible.renamed (legible : Legible symbols) (rename : String → String) :
    Legible (symbols.map (SqlSymbol.renamed rename)) := by
  refine ⟨List.forall_mem_map.mpr fun symbol member => ?_, ?_⟩
  · have plain := legible.1 symbol member
    cases symbol <;> exact plain
  · refine (List.isChain_map _).mpr (legible.2.imp fun symbol next apart => ?_)
    cases symbol <;> cases next <;> exact apart

theorem tokens_renamed (rename : String → String) (dialect : Dialect) (symbols : List SqlSymbol) :
    (symbols.map (SqlSymbol.renamed rename)).flatMap (tokens dialect) =
      (symbols.flatMap (tokens dialect)).map (SqlSymbol.renamed rename) := by
  rw [List.flatMap_map, List.map_flatMap]
  refine List.flatMap_congr fun symbol _ => ?_
  cases symbol with
  | char | name | value => rfl
  | parameter number =>
    simp only [SqlSymbol.renamed, tokens, List.map_map]
    rfl

end SqlSymbol

/-- The counterpart that binds its literals is cut into the same tokens, with its own names. -/
theorem Sql.cut_counterpart {sql : Sql} (legible : SqlSymbol.Legible sql.symbols)
    (rename : String → String) (parameters : List Cell) (dialect : Dialect) :
    SqlSymbol.cut (Sql.text dialect
        (sql.map (SqlPiece.counterpart rename .bound parameters))).toList =
      (SqlSymbol.cut (sql.text dialect).toList).map (SqlSymbol.renamed rename) := by
  have symbols : Sql.symbols (sql.map (SqlPiece.counterpart rename .bound parameters)) =
      sql.symbols.map (SqlSymbol.renamed rename) := by
    refine symbols_map (fun piece => ?_) sql
    cases piece with
    | words text =>
      rw [SqlPiece.counterpart, SqlPiece.symbols, wordSymbols, List.map_map]
      rfl
    | name | parameter | value => rfl
  rw [toList_written, toList_written, symbols, SqlSymbol.cut_written dialect legible,
    SqlSymbol.cut_written dialect (legible.renamed rename), SqlSymbol.tokens_renamed]

namespace Chain

variable {chain : Chain} {dialect : Dialect} {query : CompiledQuery} {rename : String → String}

/-- The query of a chain under new names, if no names at all become one. -/
theorem exists_renamed (formed : chain.Formed) (compiled : chain.compile dialect = .ok query)
    (injective : rename.Injective) (fixed : rename positionColumn = positionColumn) :
    ∃ query', (chain.renamed rename).compile dialect = .ok query' ∧
      query'.parameters = query.parameters ∧
      query'.sql = query.sql.map (SqlPiece.counterpart rename .bound query.parameters) := by
  obtain ⟨sql', draft', written, parameters, part⟩ := exists_counterpart injective fixed .bound
    (.inr formed) compiled
  have same := parameters rfl
  rw [compile, written]
  exact ⟨_, rfl, same, part.pieces⟩

/-- A query holds no names but those of its chain and that of the hidden column. -/
theorem name_mem_names (formed : chain.Formed) (compiled : chain.compile dialect = .ok query)
    {quoted : String} (occurs : .name quoted ∈ query.sql) :
    quoted ∈ positionColumn :: chain.names := by
  by_contra foreign
  -- nothing changes if the name and another one that is foreign change places
  obtain ⟨other, fresh⟩ :=
    Infinite.exists_notMem_finset (quoted :: positionColumn :: chain.names).toFinset
  rw [List.mem_toFinset, List.mem_cons, not_or] at fresh
  have stays (name : String) (known : name ∈ positionColumn :: chain.names) :
      Equiv.swap quoted other name = name :=
    Equiv.swap_apply_of_ne_of_ne (fun same => foreign (same ▸ known))
      fun same => fresh.2 (same ▸ known)
  have same : chain.renamed (Equiv.swap quoted other) = chain := by
    rw [renamed_congr fun name member => stays name (.tail _ member)]
    exact renamed_id chain
  obtain ⟨query', compiled', _, moved⟩ := exists_renamed formed compiled
    (Equiv.swap quoted other).injective (stays _ (.head _))
  rw [same, compiled] at compiled'
  cases compiled'
  have unmoved := List.map_inj_left.mp (moved.symm.trans (List.map_id _).symm) _ occurs
  rw [SqlPiece.counterpart, Equiv.swap_apply_left] at unmoved
  exact fresh.1 (SqlPiece.name.inj unmoved)

/-- The new name of a name, where that of the hidden column is kept. -/
def keepingPosition (rename : String → String) (name : String) : String :=
  if name = positionColumn then name else rename name

theorem keepingPosition_of_mem
    (reserved : ∀ name ∈ chain.names, rename name = positionColumn ↔ name = positionColumn)
    {name : String} (known : name ∈ chain.names) : keepingPosition rename name = rename name := by
  rw [keepingPosition]
  split
  · exact ((reserved name known).mpr ‹_›).symm ▸ ‹_›
  · rfl

theorem keepingPosition_injOn (injective : Set.InjOn rename {name | name ∈ chain.names})
    (reserved : ∀ name ∈ chain.names, rename name = positionColumn ↔ name = positionColumn) :
    Set.InjOn (keepingPosition rename) {name | name ∈ positionColumn :: chain.names} := by
  have position {name : String} (known : name ∈ chain.names) :
      keepingPosition rename name = positionColumn ↔ name = positionColumn := by
    rw [keepingPosition_of_mem reserved known]
    exact reserved name known
  have hidden : keepingPosition rename positionColumn = positionColumn := if_pos rfl
  intro name known other known' same
  rcases List.mem_cons.mp known with rfl | known
  · rcases List.mem_cons.mp known' with rfl | known'
    · rfl
    · exact ((position known').mp (same.symm.trans hidden)).symm
  · rcases List.mem_cons.mp known' with rfl | known'
    · exact (position known).mp (same.trans hidden)
    · rw [keepingPosition_of_mem reserved known, keepingPosition_of_mem reserved known'] at same
      exact injective known known' same

/-- Let the names of a chain over well formed sources be exchanged so that different ones stay
different, and none becomes or was that of the hidden column. The chain can be built exactly if it
could before, and it compiles to a query with the same parameters, whose text is cut at the quotes
into the same tokens with the new names. -/
theorem compile_renamed (formed : chain.Formed) (compiled : chain.compile dialect = .ok query)
    (injective : Set.InjOn rename {name | name ∈ chain.names})
    (reserved : ∀ name ∈ chain.names, rename name = positionColumn ↔ name = positionColumn) :
    (chain.renamed rename).signature?.isOk = chain.signature?.isOk ∧
      ∃ query', (chain.renamed rename).compile dialect = .ok query' ∧
        query'.parameters = query.parameters ∧
        SqlSymbol.cut (query'.sql.text dialect).toList =
          (SqlSymbol.cut (query.sql.text dialect).toList).map
            (SqlSymbol.renamed (keepingPosition rename)) := by
  -- all other names change places so that no two names become one
  obtain ⟨moved, extended⟩ := Equiv.Perm.exists_extending_pair
    (Subtype.val : {name // name ∈ positionColumn :: chain.names} → String)
    (fun name => keepingPosition rename name) Subtype.val_injective
    (keepingPosition_injOn injective reserved).injective
  have agrees {name : String} (known : name ∈ positionColumn :: chain.names) :
      moved name = keepingPosition rename name := extended ⟨name, known⟩
  have fixed : moved positionColumn = positionColumn := (agrees (.head _)).trans (if_pos rfl)
  have sameChain : chain.renamed rename = chain.renamed moved :=
    renamed_congr fun name known =>
      ((agrees (.tail _ known)).trans (keepingPosition_of_mem reserved known)).symm
  obtain ⟨query', compiled', parameters, moves⟩ :=
    exists_renamed formed compiled moved.injective fixed
  have sameNames : query.sql.map (SqlPiece.counterpart moved .bound query.parameters) =
      query.sql.map (SqlPiece.counterpart (keepingPosition rename) .bound query.parameters) := by
    refine List.map_congr_left fun piece occurs => ?_
    cases piece with
    | name quoted => exact congrArg SqlPiece.name (agrees (name_mem_names formed compiled occurs))
    | words | parameter | value => rfl
  rw [sameChain]
  refine ⟨(signature?_renamed moved.injective formed).isOk_eq, query', compiled', parameters, ?_⟩
  rw [moves, sameNames]
  exact Sql.cut_counterpart (legible_of_compile compiled) ..

/-- Numbered orders in groups, the first ones of their table. -/
def groupedOrders : Chain :=
  .apply
    (.apply (.source "orders" ⟨[⟨"id", .int, false⟩, ⟨"group", .text, true⟩], [0], []⟩)
      (.orderBy [⟨"group", true, .last⟩]))
    (.filter (.binary (.comparison .less) (.column "id") (.literal (.int 10))))

/-- A name that would end the quotes around it and go on as another query. -/
def breakingOut (name : String) : String :=
  "x\" FROM \"__ord\" -- " ++ name

/-- Names with quotes and words of queries in them stay names. -/
theorem compile_groupedOrders : ∃ query query',
    groupedOrders.compile .sqlite = .ok query ∧
      (groupedOrders.renamed breakingOut).compile .sqlite = .ok query' ∧
      query'.parameters = [.int 10] ∧
      SqlSymbol.cut (query'.sql.text .sqlite).toList =
        (SqlSymbol.cut (query.sql.text .sqlite).toList).map
          (SqlSymbol.renamed (keepingPosition breakingOut)) := by
  have formed : groupedOrders.Formed := ⟨by decide, by decide⟩
  have different : ∀ name ∈ groupedOrders.names, ∀ other ∈ groupedOrders.names,
      breakingOut name = breakingOut other → name = other := by decide
  obtain ⟨_, query', compiled', parameters, tokens⟩ := @compile_renamed groupedOrders .sqlite _
    breakingOut formed (by cbv) (fun name known other known' => different name known other known')
    (by decide)
  exact ⟨_, query', by cbv, compiled', parameters, tokens⟩

end Chain

end TablePipeline

import TablePipeline.Proofs.Chain.Joins

/-! # Chains that can be built do not go wrong

A chain that can be built is run on tables of the declared shapes, whose rows have nulls only where
the declared schemas admit them. If no integer overflows in an expression that computes a cell, the
run gives a table or reports that a sum of integers overflowed. At every step that it comes to, all
rows have one cell for every column, and every position that is looked up is there.
-/

namespace TablePipeline

/-! ## Tables -/

/-- May a table hold a cell in this column? -/
def Column.Stores (column : Column) (cell : Cell) : Prop :=
  match cell.type? with
  | none => column.nullable = true
  | some found => found = column.type

namespace Table

/-- Does a table hold one cell for every column in each of its rows, of the type of the column? -/
def Proper (table : Table) : Prop :=
  ∀ row ∈ table.rows, List.Forall₂ Column.Stores table.schema.columns row

variable {name : String} {schema : Schema} {rows : List Row} {index : Nat}

/-- A cell that a column admits can be stored in it. -/
theorem exists_admitCell {column : Column} {cell : Cell} (admitted : column.Admits cell) :
    ∃ stored, admitCell name index column cell = .ok stored := by
  cases cell with
  | null => exact ⟨.null, if_pos admitted⟩
  | int value =>
    rcases ValueType.admits_int.mp admitted with isInt | isFloat
    · exact ⟨.int value, if_pos isInt⟩
    · have notInt : column.type ≠ .int := fun isInt => by
        simp only at isFloat
        rw [isInt] at isFloat
        cases isFloat
      exact ⟨.float (Number.toFloat value), (if_neg notInt).trans (if_pos isFloat)⟩
  | bool value => exact ⟨.bool value, if_pos (ValueType.admits_bool.mp admitted).symm⟩
  | float value => exact ⟨.float value, if_pos (ValueType.admits_float.mp admitted).symm⟩
  | text value => exact ⟨.text value, if_pos (ValueType.admits_text.mp admitted).symm⟩

theorem stores_of_admitCell {column : Column} {cell stored : Cell}
    (admits : admitCell name index column cell = .ok stored) : column.Stores stored := by
  unfold admitCell at admits
  split at admits
  · rename_i isNull
    split at admits
    · cases admits
      rw [Column.Stores, isNull]
      assumption
    · cases admits
  · split at admits
    · cases admits
      exact Eq.symm ‹_›
    · split at admits
      · cases admits
        exact Eq.symm ‹_›
      · cases admits
  · rename_i isValue
    split at admits
    · cases admits
      rw [Column.Stores, isValue]
      assumption
    · cases admits

/-- A row is stored if it has a cell for every column, and each is stored in its column. -/
theorem admitRow_eq_ok {row stored : Row} :
    admitRow name schema index row = .ok stored ↔ row.length = schema.width ∧
      List.Forall₂ (fun entry cell => admitCell name index entry.1 entry.2 = .ok cell)
        (schema.columns.zip row) stored := by
  rw [admitRow]
  split
  · rename_i fits
    rw [mapM_eq_ok, and_iff_right fits]
  · rename_i different
    exact iff_of_false nofun fun admitted => different admitted.1

/-- A table is made of rows that its schema admits. -/
theorem exists_ofRows (name : String) (admitted : ∀ row ∈ rows, schema.Admits row) :
    ∃ table, ofRows name schema rows = .ok table := by
  have each : ∀ numbered ∈ rows.zipIdx, ∃ stored,
      admitRow name schema numbered.2 numbered.1 = .ok stored := by
    intro numbered member
    have fits := admitted numbered.1 (List.fst_mem_of_mem_zipIdx member)
    rw [admitRow, if_pos fits.length_eq]
    refine exists_mapM fun pair isPair => exists_admitCell ?_
    exact (List.forall₂_iff_zip.mp fits).2 isPair
  obtain ⟨stored, computed⟩ := exists_mapM each
  exact ⟨_, bind_eq_ok.mpr ⟨stored, computed, rfl⟩⟩

/-- Every table that is made of rows is proper. -/
theorem proper_of_ofRows {table : Table} (made : ofRows name schema rows = .ok table) :
    table.Proper := by
  simp only [ofRows, bind_eq_ok, pure_eq_ok] at made
  obtain ⟨stored, computed, rfl⟩ := made
  intro row member
  obtain ⟨numbered, _, admits⟩ := exists_of_mem_right (mapM_eq_ok.mp computed) member
  obtain ⟨lengths, admits⟩ := admitRow_eq_ok.mp admits
  have covered : (schema.columns.zip numbered.1).map Prod.fst = schema.columns :=
    List.map_fst_zip (Nat.le_of_eq lengths.symm)
  change List.Forall₂ Column.Stores schema.columns row
  rw [← covered, List.forall₂_map_left_iff]
  exact admits.imp fun pair cell => stores_of_admitCell

end Table

/-- Is a name bound to a table of the declared shape whose nulls are in columns that admit them? -/
def Inputs.Supplies (inputs : Inputs) (name : String) (schema : Schema) : Prop :=
  ∃ table, inputs.find? name = some table ∧ table.Proper ∧
    table.schema.sameShape schema = true ∧
    ∀ row ∈ table.rows, List.Forall₂ (fun column cell => cell = .null → column.nullable = true)
      schema.columns row

/-- Stored cells whose nulls another schema of the shape admits are such as that schema admits. -/
private theorem admits_of_stores {columns declared : List Column} {row : Row}
    (sameShape : columns.map (fun column => (column.name, column.type)) =
      declared.map fun column => (column.name, column.type))
    (stores : List.Forall₂ Column.Stores columns row)
    (nullable : List.Forall₂ (fun column cell => cell = .null → column.nullable = true)
      declared row) : List.Forall₂ Column.Admits declared row := by
  induction stores generalizing declared with
  | nil =>
    cases nullable
    exact .nil
  | @cons column cell _ _ stored _ ih =>
    obtain ⟨other, others, first, rest, rfl⟩ := List.forall₂_cons_right_iff.mp nullable
    rw [List.map_cons, List.map_cons, List.cons.injEq, Prod.mk.injEq] at sameShape
    refine .cons ?_ (ih sameShape.2 rest)
    cases cell with
    | null => exact first rfl
    | bool | int | float | text => exact .inl (Eq.trans stored sameShape.1.2)

/-- The rows of a bound table are such as the declared schema admits. -/
theorem Inputs.Supplies.rows {inputs : Inputs} {name : String} {schema : Schema}
    (supplied : inputs.Supplies name schema) :
    ∃ table, inputs.source name schema = .ok table ∧ ∀ row ∈ table.rows, schema.Admits row := by
  obtain ⟨table, bound, proper, sameShape, nullable⟩ := supplied
  refine ⟨table, ?_, fun row member => ?_⟩
  · rw [source, get, bound, ok_bind, if_pos sameShape]
    rfl
  · exact admits_of_stores (of_decide_eq_true sameShape) (proper row member) (nullable row member)

namespace Chain

variable {inputs : Inputs} {signature : Signature}

/-! ## The steps of a run -/

/-- The chains that are run when a chain is: it after each of its steps, and the right sides of its
joins, to which a run comes when the left side is done. -/
inductive Reaches (inputs : Inputs) : Chain → Chain → Prop where
  | refl {chain : Chain} : Reaches inputs chain chain
  | apply {input part : Chain} {verb : Verb} :
    Reaches inputs input part → Reaches inputs (apply input verb) part
  | left {input right part : Chain} {kind : JoinKind} {pairs : List (String × String)} :
    Reaches inputs input part → Reaches inputs (join input right kind pairs) part
  | right {input right part : Chain} {kind : JoinKind} {pairs : List (String × String)}
    {rows : List Row} : input.rows inputs = .ok rows →
    Reaches inputs right part → Reaches inputs (join input right kind pairs) part

theorem Reaches.trans {whole part smaller : Chain} (outer : Reaches inputs whole part)
    (inner : Reaches inputs part smaller) : Reaches inputs whole smaller := by
  induction outer with
  | refl => exact inner
  | apply _ ih => exact .apply (ih inner)
  | left _ ih => exact .left (ih inner)
  | right done _ ih => exact .right done (ih inner)

/-- A chain that can be built is built of chains that can. -/
theorem Reaches.built {whole part : Chain} (reaches : Reaches inputs whole part)
    (built : whole.signature? = .ok signature) : ∃ known, part.signature? = .ok known := by
  induction reaches generalizing signature with
  | refl => exact ⟨signature, built⟩
  | apply _ ih =>
    obtain ⟨before, built, _⟩ := bind_eq_ok.mp built
    exact ih built
  | left _ ih =>
    obtain ⟨before, built, _⟩ := bind_eq_ok.mp built
    exact ih built
  | right _ _ ih =>
    obtain ⟨_, _, built⟩ := bind_eq_ok.mp built
    obtain ⟨before, built, _⟩ := bind_eq_ok.mp built
    exact ih built

/-- Is every source that a run comes to bound to a table that fits? -/
def Supplied (inputs : Inputs) (chain : Chain) : Prop :=
  ∀ {name : String} {schema : Schema}, chain.Reaches inputs (source name schema) →
    inputs.Supplies name schema

/-- Does no integer overflow in the expressions that compute cells? A step that does not go through
has reported an overflow already. -/
def Exact (inputs : Inputs) (chain : Chain) : Prop :=
  ∀ {input : Chain} {verb : Verb}, chain.Reaches inputs (apply input verb) →
    ∀ {rows result : List Row}, input.rows inputs = .ok rows →
      (apply input verb).rows inputs = .ok result → verb.Exact input.schema rows

/-- Is every position that the last step looks up one of the rows before it? -/
def LooksInside : Chain → Prop
  | source .. => True
  | chain@(apply input verb) =>
    ∃ positions, verb.reads input.signature chain.schema = .ok positions ∧
      ∀ position ∈ positions, position < input.schema.width
  | join input right _ pairs =>
    (∃ columns, joinKeyColumns input.schema right.schema pairs = .ok columns ∧
      ∀ column ∈ columns, column.left < input.schema.width ∧ column.right < right.schema.width) ∧
    ∀ entry ∈ Schema.joinLayout input.schema right.schema pairs,
      Schema.Inside input.schema right.schema entry

/-- What holds of a step of a run that does not go wrong. -/
structure Sound (inputs : Inputs) (chain : Chain) : Prop where
  /-- The step goes through, or a sum of integers overflowed. -/
  ends : (∃ rows, chain.rows inputs = .ok rows) ∨
    ∃ column, chain.rows inputs = .error (.integerOverflow column)
  /-- Every row has cells such as the columns admit. -/
  admits : ∀ {rows : List Row}, chain.rows inputs = .ok rows →
    ∀ row ∈ rows, chain.schema.Admits row
  /-- Every row has one cell for every column. -/
  width : ∀ {rows : List Row}, chain.rows inputs = .ok rows →
    ∀ row ∈ rows, row.length = chain.schema.width
  /-- Every position that is looked up in a row is there. -/
  looksInside : chain.LooksInside
  /-- A summary has a column for every group and every aggregate. -/
  columns : ∀ {input : Chain} {aggregates : List (String × Aggregate)},
    chain = apply input (.summarise aggregates) →
      chain.schema.width = input.signature.groups.length + aggregates.length
  /-- A window function has one value for every place among the rows, and none for any other. -/
  places : ∀ {input : Chain} {added : Window}, chain = apply input (.window added) →
    ∀ {rows : List Row}, input.rows inputs = .ok rows →
      ∀ (partition : List Nat) (keys : List (Nat × OrderKey)) (function : BoundWindow),
        ((function.placed partition keys rows).map (·.1)).Perm (List.range rows.length)

/-- A summary has a column for every group and every aggregate. -/
theorem width_of_summarise {before : Signature} {aggregates : List (String × Aggregate)}
    {schema : Schema} (summarised : before.summarise aggregates = .ok schema) :
    schema.width = before.groups.length + aggregates.length := by
  obtain ⟨keys, values, known, typed, columns⟩ := Signature.columns_of_summarise summarised
  rw [Schema.width, columns, List.length_append, ← (mapM_eq_ok.mp known).length_eq,
    ← typed.length_eq]

/-- The positions that the last step of a built chain looks up are there. -/
theorem looksInside_of_built {chain : Chain} (built : chain.signature? = .ok signature) :
    chain.LooksInside := by
  cases chain with
  | source => trivial
  | apply input verb =>
    have whole := built
    obtain ⟨before, inputBuilt, applied⟩ := bind_eq_ok.mp built
    rw [LooksInside, schema, schema, signature_of_built whole, signature_of_built inputBuilt]
    exact Verb.exists_reads applied
  | join input right kind pairs =>
    obtain ⟨left, leftBuilt, built⟩ := bind_eq_ok.mp built
    obtain ⟨known, rightBuilt, joined⟩ := bind_eq_ok.mp built
    obtain ⟨_, schema, made, _⟩ := Signature.join_eq_ok.mp joined
    rw [LooksInside, Chain.schema, Chain.schema, signature_of_built leftBuilt,
      signature_of_built rightBuilt]
    exact ⟨Schema.joinKeyColumns_of_join made, fun entry => Schema.inside_of_mem_joinLayout⟩

/-- The rows of a built chain are computed, or a sum of integers overflows. -/
theorem rows_of_built {chain : Chain} (built : chain.signature? = .ok signature)
    (supplied : chain.Supplied inputs) :
    (∃ rows, chain.rows inputs = .ok rows) ∨
      ∃ column, chain.rows inputs = .error (.integerOverflow column) := by
  induction chain generalizing signature with
  | source name schema =>
    obtain ⟨table, bound, _⟩ := (supplied .refl).rows
    exact .inl ⟨table.rows, by rw [rows, bound]; rfl⟩
  | apply input verb ih =>
    have whole := signature_of_built built
    obtain ⟨before, inputBuilt, applied⟩ := bind_eq_ok.mp built
    refine bind_ok_or (ih inputBuilt fun reaches => supplied (.apply reaches)) fun rows _ => ?_
    rw [schema, whole, signature_of_built inputBuilt]
    obtain ⟨positions, read, _⟩ := Verb.exists_reads applied
    exact Verb.rows_of_reads read rows
  | join input right kind pairs ihLeft ihRight =>
    obtain ⟨left, leftBuilt, built⟩ := bind_eq_ok.mp built
    obtain ⟨known, rightBuilt, joined⟩ := bind_eq_ok.mp built
    obtain ⟨_, schema, made, _⟩ := Signature.join_eq_ok.mp joined
    refine bind_ok_or (ihLeft leftBuilt fun reaches => supplied (.left reaches)) fun rows done => ?_
    refine bind_ok_or (ihRight rightBuilt fun reaches => supplied (.right done reaches)) fun _ _ => ?_
    obtain ⟨columns, found, _⟩ := Schema.joinKeyColumns_of_join made
    rw [Chain.schema, Chain.schema, signature_of_built leftBuilt, signature_of_built rightBuilt, found]
    exact .inl ⟨_, rfl⟩

/-- The rows of a built chain are such as its schema admits. -/
theorem admits_of_built {chain : Chain} (built : chain.signature? = .ok signature)
    (supplied : chain.Supplied inputs) (exact : chain.Exact inputs) {rows : List Row}
    (computed : chain.rows inputs = .ok rows) : ∀ row ∈ rows, signature.schema.Admits row := by
  induction chain generalizing signature rows with
  | source name schema =>
    obtain ⟨table, bound, admitted⟩ := (supplied .refl).rows
    rw [Chain.rows, bound] at computed
    cases computed
    cases built
    exact admitted
  | apply input verb ih =>
    have done := computed
    have whole := signature_of_built built
    obtain ⟨before, inputBuilt, applied⟩ := bind_eq_ok.mp built
    obtain ⟨inputRows, inputDone, computed⟩ := bind_eq_ok.mp computed
    rw [schema, whole, signature_of_built inputBuilt] at computed
    have evaluated := exact .refl inputDone done
    rw [schema, signature_of_built inputBuilt] at evaluated
    exact Verb.admits_rows applied (ih inputBuilt (fun reaches => supplied (.apply reaches))
      (fun reaches => exact (.apply reaches)) inputDone) computed evaluated
  | join input right kind pairs ihLeft ihRight =>
    obtain ⟨left, leftBuilt, built⟩ := bind_eq_ok.mp built
    obtain ⟨known, rightBuilt, joined⟩ := bind_eq_ok.mp built
    obtain ⟨_, schema, made, _, _, rfl⟩ := Signature.join_eq_ok.mp joined
    simp only [Chain.rows, bind_eq_ok, pure_eq_ok] at computed
    obtain ⟨leftRows, leftDone, rightRows, rightDone, columns, _, rfl⟩ := computed
    rw [Chain.schema, Chain.schema, signature_of_built leftBuilt, signature_of_built rightBuilt]
    exact admits_joinRows made columns
      (ihLeft leftBuilt (fun reaches => supplied (.left reaches))
        (fun reaches => exact (.left reaches)) leftDone)
      (ihRight rightBuilt (fun reaches => supplied (.right leftDone reaches))
        (fun reaches => exact (.right leftDone reaches)) rightDone)

/-- A built chain is sound at its last step. -/
theorem sound_of_built {chain : Chain} (built : chain.signature? = .ok signature)
    (supplied : chain.Supplied inputs) (exact : chain.Exact inputs) : chain.Sound inputs where
  ends := rows_of_built built supplied
  admits {rows} computed := by
    rw [schema, signature_of_built built]
    exact admits_of_built built supplied exact computed
  width {rows} computed row member := by
    rw [schema, signature_of_built built]
    exact (admits_of_built built supplied exact computed row member).length_eq
  looksInside := looksInside_of_built built
  columns {input aggregates} same := by
    subst same
    have whole := signature_of_built built
    obtain ⟨before, inputBuilt, applied⟩ := bind_eq_ok.mp built
    rw [schema, whole, signature_of_built inputBuilt]
    exact width_of_summarise (Signature.schema_of_summarise applied)
  places _ _ _ _ _ function := function.places_perm _

/-- The run of a built chain on tables that fit gives a table, or a sum of integers overflows, as
long as no other integer does; and every step that it comes to is sound. -/
theorem run_of_built {chain : Chain} (built : chain.signature? = .ok signature)
    (supplied : chain.Supplied inputs) (exact : chain.Exact inputs) :
    ((∃ table, chain.run inputs = .ok table) ∨
        ∃ column, chain.run inputs = .error (.integerOverflow column)) ∧
      ∀ {part : Chain}, chain.Reaches inputs part → part.Sound inputs := by
  constructor
  · refine bind_ok_or (rows_of_built built supplied) fun rows computed => ?_
    rw [schema, signature_of_built built]
    obtain ⟨table, made⟩ := Table.exists_ofRows chain.signature.name
      (admits_of_built built supplied exact computed)
    rw [signature_of_built built] at made
    exact .inl ⟨table, mapError_eq_ok.mpr made⟩
  · intro part reaches
    obtain ⟨known, partBuilt⟩ := reaches.built built
    exact sound_of_built partBuilt (fun further => supplied (reaches.trans further))
      fun further => exact (reaches.trans further)

/-- The net amounts of sales by region, with the heads of the regions. -/
def regionTotals : Chain :=
  let sales := source "sales" ⟨[⟨"region", .text, false⟩, ⟨"amount", .int, true⟩], [], []⟩
  let net := apply sales
    (.mutate [("net", .binary (.arithmetic .subtract) (.column "amount") (.literal (.int 1)))])
  let totals := apply (apply net (.groupBy ["region"]))
    (.summarise [("total", ⟨.sum, some (.column "net")⟩)])
  let regions := source "regions" ⟨[⟨"region", .text, false⟩, ⟨"head", .text, true⟩], [0], []⟩
  join totals regions .left [("region", "region")]

/-- Tables for `regionTotals`; the south has no head, and one of its amounts is null. -/
def regionInputs : Inputs :=
  ⟨[("regions", ⟨"regions", ⟨[⟨"region", .text, false⟩, ⟨"head", .text, true⟩], [0], []⟩,
      [[.text "north", .text "Ada"]]⟩),
    ("sales", ⟨"sales", ⟨[⟨"region", .text, false⟩, ⟨"amount", .int, true⟩], [], []⟩,
      [[.text "south", .int 5], [.text "north", .int 8], [.text "south", .null]]⟩)]⟩

/-- The run comes to two sources, and each is bound to a table that fits; all its differences fit 64
bits. -/
theorem run_regionTotals :
    regionTotals.signature? = .ok regionTotals.signature ∧ regionTotals.Supplied regionInputs ∧
      regionTotals.Exact regionInputs ∧
      ((∃ table, regionTotals.run regionInputs = .ok table) ∨
        ∃ column, regionTotals.run regionInputs = .error (.integerOverflow column)) ∧
      ∀ {part : Chain}, regionTotals.Reaches regionInputs part → part.Sound regionInputs := by
  have built : regionTotals.signature? = .ok regionTotals.signature := rfl
  have supplied : regionTotals.Supplied regionInputs := by
    intro name schema reaches
    cases reaches with
    | left reaches =>
      cases reaches with | apply reaches => cases reaches with | apply reaches =>
      cases reaches with | apply reaches => cases reaches with | refl =>
      refine ⟨_, rfl, ?_, rfl, ?_⟩
      · simp [Table.Proper, Column.Stores, Cell.type?]
      · simp 
    | right _ reaches =>
      cases reaches
      refine ⟨_, rfl, ?_, rfl, ?_⟩
      · simp [Table.Proper, Column.Stores, Cell.type?]
      · simp
  have exact : regionTotals.Exact regionInputs := by
    intro input verb reaches rows result computed _
    cases reaches with
    | left reaches =>
      cases reaches with
      | refl =>
        -- The sum reads a column, and nothing is computed for it.
        intro assigned member argument isArgument row _ bound resolved
        rw [List.mem_singleton.mp member] at isArgument
        cases isArgument
        cases resolved
        trivial
      | apply reaches =>
        cases reaches with
        | refl => trivial
        | apply reaches =>
          cases reaches with
          | refl =>
            cases computed
            intro assigned member row isRow bound resolved
            cases List.mem_singleton.mp member
            cases resolved
            refine ⟨trivial, trivial, ?_⟩
            simp only [List.mem_cons, List.not_mem_nil, or_false] at isRow
            rcases isRow with rfl | rfl | rfl
            · exact (by decide : Number.Fits (5 - 1))
            · exact (by decide : Number.Fits (8 - 1))
            · trivial
          | apply reaches => cases reaches
    | right _ reaches => cases reaches
  exact ⟨built, supplied, exact, run_of_built built supplied exact⟩

end Chain

end TablePipeline

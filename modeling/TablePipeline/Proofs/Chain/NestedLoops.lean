import TablePipeline.Proofs.Chain.Keys
import TablePipeline.Proofs.Rows.Matching

/-! # A join is a loop over both sides

The rows of a join that is checked are those that two nested loops make, on rows of the types of their
columns: the rows of the left side in order, each with the rows of the right side whose key columns
compare equal to its own, in order. Where an integer column is paired with one of doubles, this holds
as long as every integer that is compared is a double; an integer that is none is joined with the
neighbour that it rounds to, to which it does not compare equal.
-/

namespace TablePipeline

/-! ## Rows of the types of their columns -/

/-- What a table may hold, a row may hold on its way. -/
theorem Column.Stores.admits {column : Column} {cell : Cell} (stores : column.Stores cell) :
    column.Admits cell := by
  cases cell with
  | null => exact stores
  | bool | int | float | text => exact .inl stores

namespace Schema

/-- Has a row one cell for every column, such as a table may hold there? -/
def Stores (schema : Schema) (row : Row) : Prop :=
  List.Forall₂ Column.Stores schema.columns row

variable {left right joined : Schema} {kind : JoinKind} {pairs : List (String × String)}
  {columns : List JoinKeyColumn} {row other : Row}

theorem Stores.admits {schema : Schema} (stores : schema.Stores row) : schema.Admits row :=
  List.Forall₂.imp (fun _ _ => Column.Stores.admits) stores

theorem Stores.cell {schema : Schema} (stores : schema.Stores row) {position : Nat} {column : Column}
    (here : schema.columns[position]? = some column) : column.Stores (row.cell position) := by
  obtain ⟨cell, isCell, stored⟩ := exists_getElem?_of_forall₂ stores here
  rwa [Row.cell, isCell, Option.getD_some]

/-- A cell of a column has its type, unless it is null. -/
theorem Stores.type_eq {schema : Schema} (stores : schema.Stores row) {position : Nat}
    {column : Column} (here : schema.columns[position]? = some column) {type : CellType}
    (hasType : (row.cell position).type? = some type) : type = column.type := by
  have stored := stores.cell here
  rwa [Column.Stores, hasType] at stored

/-- What a table may hold has the types of the columns. -/
theorem Stores.typed {schema : Schema} (stores : schema.Stores row) : schema.Typed row := by
  intro entry member type hasType
  have stored := (List.forall₂_iff_zip.mp stores).2 member
  rwa [Column.Stores, hasType] at stored

/-- A joined row has the types of its columns. -/
theorem typed_joined (made : left.join right kind pairs = .ok joined) (stores : left.Stores row)
    {partner : Option Row} (stores' : ∀ other ∈ partner, right.Stores other) :
    joined.Typed (row.joined (joinLayout left right pairs) partner) := by
  intro entry member type hasType
  rw [Row.joined, List.zip_map_right] at member
  obtain ⟨⟨column, side, index⟩, placed, rfl⟩ := List.mem_map.mp member
  have isColumn : joinColumn? left right kind ⟨side, index⟩ = some column :=
    List.forall₂_zip (forall₂_joinLayout made).flip placed
  cases side with
  | left => exact stores.type_eq isColumn hasType
  | right =>
    obtain ⟨source, here, rfl⟩ := Option.map_eq_some_iff.mp isColumn
    cases partner with
    | none => cases hasType
    | some other => exact (stores' other rfl).type_eq here hasType

theorem typed_joinRows (made : left.join right kind pairs = .ok joined)
    (columns : List JoinKeyColumn) {leftRows rightRows : List Row}
    (stores : ∀ row ∈ leftRows, left.Stores row) (stores' : ∀ row ∈ rightRows, right.Stores row) :
    ∀ result ∈ joinRows kind columns (joinLayout left right pairs) leftRows rightRows,
      joined.Typed result := by
  intro result member
  obtain ⟨⟨row, partner⟩, paired, rfl⟩ := List.mem_map.mp member
  obtain ⟨isLeft, isRight, _⟩ := mem_joinPairs paired
  exact typed_joined made (stores row isLeft) fun other isPartner =>
    stores' other (isRight other isPartner)

end Schema

/-! ## Keys -/

/-- Are the integers that are compared with doubles all doubles? -/
def KeysAreDoubles (columns : List JoinKeyColumn) (row other : Row) : Prop :=
  ∀ column ∈ columns, column.widened = true →
    (∀ number, row.cell column.left = .int number → Number.IsDouble number) ∧
      ∀ number, other.cell column.right = .int number → Number.IsDouble number

/-- The cells of a number column keep their places as keys, if its integers are doubles. -/
theorem Cell.keepsPlace_of_stores {column : Column} {cell : Cell} (stores : column.Stores cell)
    (numeric : column.type.isNumeric = true)
    (doubles : ∀ number, cell = .int number → Number.IsDouble number) : cell.KeepsPlace := by
  cases cell with
  | null | float => trivial
  | int number => exact doubles number rfl
  | bool | text =>
    rw [← show _ = column.type from stores] at numeric
    cases numeric

/-- Columns that differ in type and can be compared hold numbers. -/
theorem CellType.isNumeric_of_widest? {left right wider : CellType}
    (isWider : left.widest? right = some wider) :
    left.isNumeric = true ∧ right.isNumeric = true := by
  cases left <;> cases right <;> cases isWider <;> exact ⟨rfl, rfl⟩

/-- The keys of rows of the types of their columns can be compared in place of the rows. -/
theorem Schema.faithful_of_stores {left right joined : Schema} {kind : JoinKind}
    {pairs : List (String × String)} (made : left.join right kind pairs = .ok joined)
    {columns : List JoinKeyColumn} (found : joinKeyColumns left right pairs = .ok columns) {row other : Row}
    (stores : left.Stores row) (stores' : right.Stores other)
    (doubles : KeysAreDoubles columns row other) :
    ∀ column ∈ columns, column.Faithful (row.cell column.left) (other.cell column.right) := by
  intro column member
  obtain ⟨pair, isPair, placed, placed', widens⟩ :=
    exists_of_mem_right (forall₂_joinKeyColumns found) member
  obtain ⟨first, second, known, known', comparable⟩ := comparable_of_checkPairs (checkPairs_of_join made) pair isPair
  rw [known, known', Option.map_some, Option.map_some] at widens
  rw [column?_eq_getElem? placed] at known
  rw [column?_eq_getElem? placed'] at known'
  unfold JoinKeyColumn.Faithful
  cases wide : column.widened with
  | true =>
    obtain ⟨wider, isWider⟩ := Option.isSome_iff_exists.mp
      (comparable.resolve_left fun same => widens.mp wide (congrArg some same))
    obtain ⟨numeric, numeric'⟩ := CellType.isNumeric_of_widest? isWider
    obtain ⟨ofLeft, ofRight⟩ := doubles column member wide
    exact ⟨Cell.keepsPlace_of_stores (stores.cell known) numeric ofLeft,
      Cell.keepsPlace_of_stores (stores'.cell known') numeric' ofRight⟩
  | false =>
    have same : first.type = second.type := by
      by_contra differ
      rw [widens.mpr fun same => differ (Option.some.inj same)] at wide
      cases wide
    cases isLeft : (row.cell column.left).type? with
    | none =>
      refine .inl ?_
      cases cell : row.cell column.left <;> first | rfl | (rw [cell] at isLeft; cases isLeft)
    | some type =>
      cases isRight : (other.cell column.right).type? with
      | none =>
        refine .inr (.inl ?_)
        cases cell : other.cell column.right <;> first | rfl | (rw [cell] at isRight; cases isRight)
      | some type' =>
        refine .inr (.inr ?_)
        rw [stores.type_eq known isLeft, stores'.type_eq known' isRight, same]

/-! ## The predicate of a key column -/

/-- The predicate that the columns of a key are equal, over the row of the left side and behind it the
row of the right side. -/
def JoinKeyColumn.predicate (width : Nat) (column : JoinKeyColumn) : Expr Nat :=
  .binary (.comparison .equal) (.column column.left) (.column (width + column.right))

/-- Two cells are equal exactly when they compare so. -/
theorem BinaryOp.equal_eq_true {a b : Cell} :
    (BinaryOp.comparison .equal).apply a b = .bool true ↔ a.order? b = some .eq := by
  cases a <;> cases b <;> simp [apply, ComparisonOp.apply, ComparisonOp.holds, Cell.isNull, Cell.order?]

/-- Rows match exactly when the predicates of their key columns hold. -/
theorem Row.matches_iff_predicates {columns : List JoinKeyColumn} {row other : Row} {width : Nat}
    (inside : ∀ column ∈ columns, column.left < width) (length : row.length = width) :
    row.Matches columns other ↔
      ∀ column ∈ columns, (column.predicate width).eval (row ++ other) = .bool true := by
  refine forall₂_congr fun column member => ?_
  have first : Row.cell (row ++ other) column.left = row.cell column.left := by
    rw [cell, List.getElem?_append_left (length ▸ inside column member), cell]
  have second : Row.cell (row ++ other) (width + column.right) = other.cell column.right := by
    rw [cell, List.getElem?_append_right (by omega), length, Nat.add_sub_cancel_left, cell]
  rw [JoinKeyColumn.predicate, Expr.eval, Expr.eval, Expr.eval, first, second,
    BinaryOp.equal_eq_true]

namespace Chain

variable {inputs : Inputs} {signature : Signature}

/-- The rows of a join are those of two nested loops, and so are those of the table of its run; a pair
of rows matches exactly when its columns are equal to those of the other row. -/
theorem run_of_join {input right : Chain} {kind : JoinKind} {pairs : List (String × String)}
    (built : (join input right kind pairs).signature? = .ok signature)
    {leftRows rightRows : List Row} (leftDone : input.rows inputs = .ok leftRows)
    (rightDone : right.rows inputs = .ok rightRows)
    (stores : ∀ row ∈ leftRows, input.schema.Stores row)
    (stores' : ∀ row ∈ rightRows, right.schema.Stores row) :
    ∃ columns, joinKeyColumns input.schema right.schema pairs = .ok columns ∧
      (∀ row ∈ leftRows, ∀ other, row.Matches columns other ↔ ∀ column ∈ columns,
        (column.predicate input.schema.width).eval (row ++ other) = .bool true) ∧
      ((∀ row ∈ leftRows, ∀ other ∈ rightRows, KeysAreDoubles columns row other) →
        ∃ results, results = (nestedPairs kind columns leftRows rightRows).map
            (fun (row, partner) =>
              row.joined (Schema.joinLayout input.schema right.schema pairs) partner) ∧
          (join input right kind pairs).rows inputs = .ok results ∧
          ∃ table, (join input right kind pairs).run inputs = .ok table ∧ table.rows = results) := by
  have whole := signature_of_built built
  obtain ⟨left, leftBuilt, built⟩ := bind_eq_ok.mp built
  obtain ⟨beside, rightBuilt, joined⟩ := bind_eq_ok.mp built
  obtain ⟨_, schema, made, _, _, rfl⟩ := Signature.join_eq_ok.mp joined
  obtain ⟨columns, found, inside⟩ := Schema.joinKeyColumns_of_join made
  simp only [Chain.schema, signature_of_built leftBuilt, signature_of_built rightBuilt]
    at stores stores' ⊢
  refine ⟨columns, found, fun row isLeft other => ?_, fun doubles => ⟨_, rfl, ?_⟩⟩
  · exact Row.matches_iff_predicates (fun column member => (inside column member).1)
      (stores row isLeft).admits.length_eq
  have same : joinRows kind columns (Schema.joinLayout left.schema beside.schema pairs) leftRows
      rightRows = (nestedPairs kind columns leftRows rightRows).map fun (row, partner) =>
        row.joined (Schema.joinLayout left.schema beside.schema pairs) partner := by
    rw [joinRows, joinPairs_eq_nestedPairs fun row isLeft other isRight =>
      Schema.faithful_of_stores made found (stores row isLeft) (stores' other isRight)
        (doubles row isLeft other isRight)]
  have computed : (join input right kind pairs).rows inputs =
      .ok (joinRows kind columns (Schema.joinLayout left.schema beside.schema pairs) leftRows
        rightRows) := by
    rw [rows, leftDone, rightDone, ok_bind, ok_bind, Chain.schema, Chain.schema,
      signature_of_built leftBuilt, signature_of_built rightBuilt, found, ok_bind]
    rfl
  obtain ⟨table, tableMade⟩ := Table.exists_ofRows (join input right kind pairs).signature.name
    (admits_joinRows made columns (fun row isLeft => (stores row isLeft).admits)
      fun row isRight => (stores' row isRight).admits)
  have typed := Schema.typed_joinRows made columns stores stores'
  rw [← same]
  refine ⟨computed, table, ?_, (Table.rows_of_ofRows typed tableMade).2⟩
  rw [run, computed, ok_bind, mapError_eq_ok, Chain.schema, whole]
  rw [whole] at tableMade
  exact tableMade

/-- Orders by number. -/
def orderSchema : Schema :=
  ⟨[⟨"id", .int, true⟩], [], []⟩

/-- Prices by a number that is a double. -/
def priceSchema : Schema :=
  ⟨[⟨"key", .float, true⟩, ⟨"label", .text, true⟩], [], []⟩

/-- The prices of orders. -/
def pricedOrders : Chain :=
  join (source "orders" orderSchema) (source "prices" priceSchema) .left [("id", "key")]

def pricedInputs (orders prices : List Row) : Inputs :=
  ⟨[("orders", ⟨"orders", orderSchema, orders⟩), ("prices", ⟨"prices", priceSchema, prices⟩)]⟩

/-- Orders with the largest integer below which all are doubles, with zero and without a number. -/
def orderRows : List Row :=
  [[.int 9007199254740992], [.null], [.int 0]]

/-- Prices with two for one number, one for minus zero, and one without a number. -/
def priceRows : List Row :=
  [[.float 9007199254740992.0, .text "a"], [.float (-0.0), .text "b"], [.null, .text "c"],
    [.float 9007199254740992.0, .text "d"]]

/-- The prices of orders whose numbers are all doubles. -/
theorem run_pricedOrders :
    pricedOrders.signature? = .ok pricedOrders.signature ∧
      (source "orders" orderSchema).rows (pricedInputs orderRows priceRows) = .ok orderRows ∧
      (source "prices" priceSchema).rows (pricedInputs orderRows priceRows) = .ok priceRows ∧
      (∀ row ∈ orderRows, orderSchema.Stores row) ∧ (∀ row ∈ priceRows, priceSchema.Stores row) ∧
      ∃ columns, joinKeyColumns orderSchema priceSchema [("id", "key")] = .ok columns ∧
        (∀ row ∈ orderRows, ∀ other ∈ priceRows, KeysAreDoubles columns row other) ∧
        ∃ results, results = (nestedPairs .left columns orderRows priceRows).map
            (fun (row, partner) =>
              row.joined (Schema.joinLayout orderSchema priceSchema [("id", "key")]) partner) ∧
          pricedOrders.rows (pricedInputs orderRows priceRows) = .ok results ∧
          ∃ table, pricedOrders.run (pricedInputs orderRows priceRows) = .ok table ∧
            table.rows = results := by
  have built : pricedOrders.signature? = .ok pricedOrders.signature := rfl
  have orders : (source "orders" orderSchema).rows (pricedInputs orderRows priceRows) =
      .ok orderRows := rfl
  have prices : (source "prices" priceSchema).rows (pricedInputs orderRows priceRows) =
      .ok priceRows := rfl
  have stores : ∀ row ∈ orderRows, orderSchema.Stores row := by
    simp [orderRows, orderSchema, Schema.Stores, Column.Stores, Cell.type?]
  have stores' : ∀ row ∈ priceRows, priceSchema.Stores row := by
    simp [priceRows, priceSchema, Schema.Stores, Column.Stores, Cell.type?]
  obtain ⟨columns, found, _, loops⟩ := run_of_join built orders prices stores stores'
  have doubles : ∀ row ∈ orderRows, ∀ other ∈ priceRows, KeysAreDoubles columns row other := by
    have large : Number.IsDouble 9007199254740992 := by decide +kernel
    have zero : Number.IsDouble 0 := by decide +kernel
    cases found
    simp [orderRows, priceRows, KeysAreDoubles, Row.cell, large, zero]
  exact ⟨built, orders, prices, stores, stores', columns, found, doubles, loops doubles⟩

/-- The number behind the largest integer below which all are doubles has the key of that one. Its
order is joined with a price of a number to which it does not compare equal. -/
theorem run_unevenOrder :
    (∃ table, pricedOrders.run (pricedInputs [[.int 9007199254740993]]
        [[.float 9007199254740992.0, .text "a"]]) = .ok table ∧
        table.rows = [[.int 9007199254740993, .float 9007199254740992.0, .text "a"]]) ∧
      (Cell.int 9007199254740993).order? (.float 9007199254740992.0) = some .gt := by
  refine ⟨⟨_, rfl, ?_⟩, by decide +kernel⟩
  decide +kernel

end Chain

end TablePipeline

import TablePipeline.Proofs.Chain.Invariants
import TablePipeline.Proofs.Chain.NestedLoops
import TablePipeline.Raw.Run

/-! # Inferred schemas

The cells that an engine hands back have no schema. One is found column by column, among the columns
that are shown: the declared type if all values of a column fit it, and otherwise the type that they
have in common. There is none only if the values are of several types and not all numbers. A schema
that is found is right: all rows can be converted to it, and a table can be made of them. It has the
last column of each name, in order, and its nulls are those that were handed back.
-/

namespace TablePipeline

/-! ## Cells as values of a type -/

namespace Cell

variable {cell value : Cell} {type : CellType}

theorem isNull_eq_false_iff : cell.isNull = false ↔ ∃ type, cell.type? = some type := by
  cases cell <;> simp [type?, isNull]

theorem coerce?_of_isNull (isNull : cell.isNull = true) : cell.coerce? type = some cell := by
  cases cell with
  | null => rfl
  | bool | int | float | text => cases isNull

/-- A value of a type passes for itself. -/
theorem coerce?_of_type (hasType : cell.type? = some type) : cell.coerce? type = some cell := by
  cases cell <;> cases hasType <;> rfl

/-- An integer passes for a double. -/
theorem exists_coerce?_float (isInt : cell.type? = some .int) :
    ∃ value, cell.coerce? .float = some value := by
  cases cell with
  | int number => exact ⟨_, rfl⟩
  | null | bool | float | text => cases isInt

/-- Null stays null, and a value becomes one of the type. -/
theorem of_coerce? (coerced : cell.coerce? type = some value) :
    cell = .null ∧ value = .null ∨ cell.isNull = false ∧ value.type? = some type := by
  cases cell with
  | null =>
    cases coerced
    exact .inl ⟨rfl, rfl⟩
  | bool | int | text => cases type <;> cases coerced <;> exact .inr ⟨rfl, rfl⟩
  | float number =>
    cases type with
    | bool | text => cases coerced
    | float =>
      cases coerced
      exact .inr ⟨rfl, rfl⟩
    | int =>
      obtain ⟨whole, _, fits⟩ := Option.bind_eq_some_iff.mp coerced
      obtain ⟨number, _, rfl⟩ := Option.map_eq_some_iff.mp fits
      exact .inr ⟨rfl, rfl⟩

theorem isNull_of_coerce? (coerced : cell.coerce? type = some value) :
    value.isNull = cell.isNull := by
  rcases of_coerce? coerced with ⟨rfl, rfl⟩ | ⟨notNull, hasType⟩
  · rfl
  · rw [notNull, isNull_eq_false_iff.mpr ⟨type, hasType⟩]

/-- A cell that was converted to the type of a column can be stored there, if null can. -/
theorem stores_of_coerce? {column : Column} (coerced : cell.coerce? column.type = some value)
    (nullable : column.nullable = true) : column.Stores value := by
  rcases of_coerce? coerced with ⟨rfl, rfl⟩ | ⟨_, hasType⟩
  · exact nullable
  · rw [Column.Stores, hasType]

end Cell

namespace CellType

variable {found : CellType → Bool}

/-- Where only one type is found, it is listed alone if at all. -/
theorem filter_all_of_one {type : CellType} (others : ∀ other, type ≠ other → found other = false) :
    all.filter found = if found type then [type] else [] := by
  cases type <;> simp [all, List.filter_cons, others]

/-- Where only types of numbers are found, integers are listed before doubles. -/
theorem filter_all_of_numbers (noTruth : found .bool = false) (noText : found .text = false) :
    all.filter found =
      (if found .int then [.int] else []) ++ if found .float then [.float] else [] := by
  cases isInt : found .int <;> simp [all, List.filter_cons, *]

end CellType

namespace ResultSet

/-! ## Types of values -/

/-- Are values all of one type, or numbers of both types? -/
def Compatible (values : List Cell) : Prop :=
  (∃ type, ∀ value ∈ values, value.type? = some type) ∨
    ∀ value ∈ values, value.type? = some .int ∨ value.type? = some .float

/-- Do values fit the type that is declared for their column? -/
def FitsDeclared (column : ResultColumn) (values : List Cell) : Prop :=
  ∃ type, column.declared = some type ∧ ∀ value ∈ values, (value.coerce? type).isSome

section Types

variable {values : List Cell} {type : CellType}

theorem mem_foundTypes :
    type ∈ CellType.all.filter (fun type => values.any (·.type? = some type)) ↔
      ∃ value ∈ values, value.type? = some type := by
  have listed : type ∈ CellType.all := by cases type <;> decide
  simp [List.mem_filter, listed]

/-- A common type is that of every value, or it is that of doubles and the others are integers. -/
theorem type?_of_commonType? (common : commonType? values = .ok type) {value : Cell}
    (member : value ∈ values) (notNull : value.isNull = false) :
    value.type? = some type ∨ type = .float ∧ value.type? = some .int := by
  obtain ⟨found, isFound⟩ := Cell.isNull_eq_false_iff.mp notNull
  have among := mem_foundTypes.mpr ⟨value, member, isFound⟩
  rw [isFound, Option.some.injEq, Option.some.injEq]
  unfold commonType? at common
  split at common
  · rename_i none
    rw [none] at among
    cases among
  · rename_i numbers
    cases common
    rw [numbers] at among
    simpa [or_comm] using among
  · rename_i single
    cases common
    rw [single] at among
    exact .inl (List.mem_singleton.mp among)
  · cases common

/-- Values of one type have a common type, and so have numbers. -/
theorem exists_commonType? (compatible : Compatible values) :
    ∃ type, commonType? values = .ok type := by
  have absent {other : CellType} (none : ∀ value ∈ values, value.type? ≠ some other) :
      values.any (·.type? = some other) = false := by
    simpa using none
  unfold commonType?
  rcases compatible with ⟨type, same⟩ | numbers
  · rw [CellType.filter_all_of_one fun other different => absent fun value member found =>
      different (Option.some.inj ((same value member).symm.trans found))]
    cases type <;> cases values.any _ <;> exact ⟨_, rfl⟩
  · have notNumber {other : CellType} (notInt : some .int ≠ some other)
        (notFloat : some .float ≠ some other) : values.any (·.type? = some other) = false :=
      absent fun value member => by
        rcases numbers value member with isInt | isFloat
        · rwa [isInt]
        · rwa [isFloat]
    have noTruth : values.any (·.type? = some .bool) = false := notNumber (by decide) (by decide)
    have noText : values.any (·.type? = some .text) = false := notNumber (by decide) (by decide)
    rw [CellType.filter_all_of_numbers noTruth noText]
    cases values.any (·.type? = some .int) <;> cases values.any (·.type? = some .float) <;>
      exact ⟨_, rfl⟩

/-- The type of a column is the declared one if all values fit it, or else the one in common. -/
theorem columnType_eq_ok {column : ResultColumn} :
    columnType column values = .ok type ↔
      (column.declared = some type ∧ ∀ value ∈ values, (value.coerce? type).isSome) ∨
        ¬ FitsDeclared column values ∧ commonType? values = .ok type := by
  unfold columnType FitsDeclared
  cases column.declared with
  | none => simp
  | some declared =>
    simp only [List.all_eq_true, Option.some.injEq, exists_eq_left']
    by_cases fits : ∀ value ∈ values, (value.coerce? declared).isSome
    · rw [if_pos fits, Except.ok.injEq]
      constructor
      · rintro rfl
        exact .inl ⟨rfl, fits⟩
      · rintro (⟨same, _⟩ | ⟨unfit, _⟩)
        · exact same
        · exact absurd fits unfit
    · rw [if_neg fits, mapError_eq_ok]
      constructor
      · exact fun common => .inr ⟨fits, common⟩
      · rintro (⟨rfl, all⟩ | ⟨_, common⟩)
        · exact absurd all fits
        · exact common

/-- A column has a type exactly when its values fit the declared one, or go together. -/
theorem exists_columnType {column : ResultColumn}
    (notNull : ∀ value ∈ values, value.isNull = false) :
    (∃ type, columnType column values = .ok type) ↔
      FitsDeclared column values ∨ Compatible values := by
  simp only [columnType_eq_ok]
  constructor
  · rintro ⟨type, declared | ⟨_, common⟩⟩
    · exact .inl ⟨type, declared⟩
    · refine .inr ?_
      have each (value : Cell) (member : value ∈ values) :=
        type?_of_commonType? common member (notNull value member)
      by_cases isFloat : type = .float
      · subst isFloat
        exact .inr fun value member => (each value member).symm.imp_left And.right
      · refine .inl ⟨type, fun value member => (each value member).resolve_right ?_⟩
        exact fun mixed => isFloat mixed.1
  · intro typable
    by_cases fits : FitsDeclared column values
    · obtain ⟨type, declared⟩ := fits
      exact ⟨type, .inl declared⟩
    · obtain ⟨type, common⟩ := exists_commonType? (typable.resolve_left fits)
      exact ⟨type, .inr ⟨fits, common⟩⟩

/-- A column without a type is named in the error. -/
theorem error_of_columnType {column : ResultColumn} {error : RunError}
    (failed : columnType column values = .error error) :
    ∃ found, error = .schemaMismatch column.name "values of one type" found := by
  have common (failed : (commonType? values).mapError (fun types => RunError.schemaMismatch
      column.name "values of one type" (", ".intercalate (types.map (·.name)))) = .error error) :
      ∃ found, error = .schemaMismatch column.name "values of one type" found := by
    obtain ⟨types, _, rfl⟩ := mapError_eq_error.mp failed
    exact ⟨_, rfl⟩
  unfold columnType at failed
  split at failed
  · split at failed
    · cases failed
    · exact common failed
  · exact common failed

/-- Every value of a column becomes one of its type. -/
theorem exists_coerce? {column : ResultColumn} (typed : columnType column values = .ok type)
    {value : Cell} (member : value ∈ values) (notNull : value.isNull = false) :
    ∃ cell, value.coerce? type = some cell := by
  rcases columnType_eq_ok.mp typed with ⟨_, fits⟩ | ⟨_, common⟩
  · exact Option.isSome_iff_exists.mp (fits value member)
  · rcases type?_of_commonType? common member notNull with same | ⟨rfl, isInt⟩
    · exact ⟨value, Cell.coerce?_of_type same⟩
    · exact Cell.exists_coerce?_float isInt

end Types

/-! ## Schemas of results -/

section Schemas

variable {result : ResultSet} {schema : Schema}

theorem mem_values {position : Nat} {value : Cell} :
    value ∈ result.values position ↔
      (∃ row ∈ result.rows, row.cell position = value) ∧ value.isNull = false := by
  simp [values, List.mem_filter]

/-- The columns of an inferred schema have the names and the types of the columns of the result. -/
theorem columns_of_infer (inferred : result.infer = .ok schema) :
    List.Forall₂ (fun entry column =>
      columnType entry.1 (result.values entry.2) = .ok column.type ∧
        column.name = entry.1.name ∧ column.nullable = true)
      result.columns.zipIdx schema.columns := by
  simp only [infer, bind_eq_ok, mapError_eq_ok, mapM_eq_ok, pure_eq_ok] at inferred
  obtain ⟨columns, each, made⟩ := inferred
  rw [(Schema.of_ofColumns made).1]
  refine each.imp fun entry column => ?_
  rintro ⟨type, typed, rfl⟩
  exact ⟨typed, rfl, rfl⟩

theorem columnType_of_infer (inferred : result.infer = .ok schema) {position : Nat}
    {column : Column} (here : schema.columns[position]? = some column) :
    ∃ source, result.columns[position]? = some source ∧
      columnType source (result.values position) = .ok column.type := by
  obtain ⟨⟨source, index⟩, isEntry, typed, _⟩ :=
    exists_getElem?_of_forall₂ (columns_of_infer inferred).flip here
  rw [List.getElem?_zipIdx, Option.map_eq_some_iff] at isEntry
  obtain ⟨_, isSource, same⟩ := isEntry
  cases same
  rw [Nat.zero_add] at typed
  exact ⟨source, isSource, typed⟩

theorem names_of_entries {columns : List Column}
    (each : List.Forall₂ (fun entry column => column.name = entry.1.name) result.columns.zipIdx
      columns) : columns.map (·.name) = result.columns.map (·.name) := by
  have same : List.Forall₂ (· = ·) (result.columns.zipIdx.map (·.1.name))
      (columns.map (·.name)) := by
    rw [List.forall₂_map_left_iff, List.forall₂_map_right_iff]
    exact each.imp fun _ _ => Eq.symm
  rw [List.forall₂_eq_eq_eq] at same
  have positions : result.columns.zipIdx.map (·.1.name) = result.columns.map (·.name) :=
    List.map_map.symm.trans (congrArg _ (List.zipIdx_map_fst ..))
  exact same.symm.trans positions

theorem names_of_infer (inferred : result.infer = .ok schema) :
    schema.names = result.columns.map (·.name) :=
  names_of_entries ((columns_of_infer inferred).imp fun _ _ typed => typed.2.1)

/-- Where columns have different names, a schema is not inferred because of the type of a column. -/
theorem columnType_of_infer_error (distinct : (result.columns.map (·.name)).Nodup)
    {error : RunError} (failed : result.infer = .error error) :
    ∃ entry ∈ result.columns.zipIdx,
      columnType entry.1 (result.values entry.2) = .error error := by
  rcases bind_eq_error.mp failed with failed | ⟨columns, computed, failed⟩
  · obtain ⟨entry, member, failed⟩ := exists_of_mapM_eq_error failed
    rcases bind_eq_error.mp failed with failed | ⟨_, _, none⟩
    · exact ⟨entry, member, failed⟩
    · cases none
  · have named : columns.map (·.name) = result.columns.map (·.name) := by
      refine names_of_entries ((mapM_eq_ok.mp computed).imp fun entry column made => ?_)
      obtain ⟨type, _, made⟩ := bind_eq_ok.mp made
      cases made
      rfl
    rw [Schema.ofColumns,
      firstRepeated?_eq_none (named ▸ distinct) fun _ _ => List.not_mem_nil] at failed
    cases failed

/-! ## Rows under an inferred schema -/

/-- Has every row one cell for each column? -/
def Rectangular (result : ResultSet) : Prop :=
  ∀ row ∈ result.rows, row.length = result.columns.length

instance (result : ResultSet) : Decidable result.Rectangular :=
  inferInstanceAs (Decidable (∀ row ∈ result.rows, row.length = result.columns.length))

/-- Does a row hold the cells of another one as values of the columns of a schema? -/
def Converts (schema : Schema) (source row : Row) : Prop :=
  List.Forall₂ (fun entry cell => entry.1.coerce? entry.2.type = some cell)
    (source.zip schema.columns) row

theorem conformCell_eq_ok {column : Column} {cell value : Cell} :
    conformCell column cell = .ok value ↔ cell.coerce? column.type = some value := by
  unfold conformCell
  cases cell.coerce? column.type <;> simp

/-- The rows of a result can be converted to the schema that is inferred from them. -/
theorem exists_conform (inferred : result.infer = .ok schema) :
    ∃ rows, result.conform schema = .ok rows ∧
      List.Forall₂ (Converts schema) result.rows rows := by
  have named : result.columns.map (·.name) = schema.names := (names_of_infer inferred).symm
  have each : ∀ row ∈ result.rows, ∃ converted,
      ((row.zip schema.columns).mapM fun entry => conformCell entry.2 entry.1) = .ok converted := by
    intro row isRow
    refine exists_mapM fun entry member => ?_
    simp only [conformCell_eq_ok]
    cases isNull : entry.1.isNull with
    | true => exact ⟨entry.1, Cell.coerce?_of_isNull isNull⟩
    | false =>
      obtain ⟨position, isEntry⟩ := List.mem_iff_getElem?.mp member
      obtain ⟨isCell, isColumn⟩ := List.getElem?_zip_eq_some.mp isEntry
      obtain ⟨source, _, typed⟩ := columnType_of_infer inferred isColumn
      have isValue : entry.1 ∈ result.values position :=
        mem_values.mpr ⟨⟨row, isRow, by rw [Row.cell, isCell, Option.getD_some]⟩, isNull⟩
      exact exists_coerce? typed isValue isNull
  obtain ⟨rows, computed⟩ := exists_mapM each
  refine ⟨rows, (if_pos named).trans computed, (mapM_eq_ok.mp computed).imp ?_⟩
  intro source row converted
  simpa only [Converts, mapM_eq_ok, conformCell_eq_ok] using converted

/-- Rows that were converted to an inferred schema make a table, and are stored as they are. -/
theorem exists_ofRows_of_conform (inferred : result.infer = .ok schema)
    (rectangular : result.Rectangular) {rows : List Row}
    (converted : List.Forall₂ (Converts schema) result.rows rows) (name : String) :
    ∃ table, Table.ofRows name schema rows = .ok table ∧ table.schema = schema ∧
      table.rows = rows := by
  have typed := columns_of_infer inferred
  have stores : ∀ row ∈ rows, schema.Stores row := by
    intro row isRow
    obtain ⟨source, isSource, each⟩ := exists_of_mem_right converted isRow
    have covered : (source.zip schema.columns).map Prod.snd = schema.columns := by
      refine List.map_snd_zip (Nat.le_of_eq ?_)
      rw [rectangular source isSource, ← typed.length_eq, List.length_zipIdx]
    rw [Schema.Stores, ← covered, List.forall₂_map_left_iff]
    refine forall₂_of_mem each fun entry member cell coerced => ?_
    obtain ⟨_, _, _, _, nullable⟩ := exists_of_mem_right typed (List.of_mem_zip member).2
    exact Cell.stores_of_coerce? coerced nullable
  obtain ⟨table, made⟩ := Table.exists_ofRows name fun row member => (stores row member).admits
  exact ⟨table, made, Table.rows_of_ofRows (fun row member => (stores row member).typed) made⟩

end Schemas

/-! ## Columns that are shown -/

/-- Is this the column at a place, and not the position, and no later column has its name? -/
structure ShownAt (result : ResultSet) (place : Nat) (column : ResultColumn) : Prop where
  here : result.columns[place]? = some column
  notPosition : column.name ≠ positionColumn
  last : ∀ later other, place < later → result.columns[later]? = some other →
    other.name ≠ column.name

/-- The places of the columns that are shown, in order. -/
def places (result : ResultSet) : List Nat :=
  (List.range result.columns.length).filter (isVisible result.columns)

section Shown

variable {result : ResultSet} {place : Nat} {column : ResultColumn}

theorem isVisible_iff :
    isVisible result.columns place = true ↔ ∃ column, result.ShownAt place column := by
  unfold isVisible
  cases dropped : result.columns.drop place with
  | nil =>
    have outside : result.columns[place]? = none :=
      List.getElem?_eq_none (List.drop_eq_nil_iff.mp dropped)
    simp only [Bool.false_eq_true, false_iff, not_exists]
    intro column shown
    cases outside.symm.trans shown.here
  | cons column rest =>
    have behind (index : Nat) : result.columns[place + index]? = (column :: rest)[index]? := by
      rw [← dropped, List.getElem?_drop]
    have here : result.columns[place]? = some column := behind 0
    rw [Bool.and_eq_true, List.all_eq_true]
    simp only [decide_eq_true_eq]
    constructor
    · rintro ⟨notPosition, last⟩
      refine ⟨column, here, notPosition, fun later other after isOther => ?_⟩
      obtain ⟨index, rfl⟩ := Nat.exists_eq_add_of_lt after
      rw [Nat.add_assoc, behind, List.getElem?_cons_succ] at isOther
      exact last other (List.mem_of_getElem? isOther)
    · rintro ⟨found, shown⟩
      cases here.symm.trans shown.here
      refine ⟨shown.notPosition, fun other member => ?_⟩
      obtain ⟨index, isOther⟩ := List.mem_iff_getElem?.mp member
      refine shown.last (place + (index + 1)) other (by omega) ?_
      rw [behind, List.getElem?_cons_succ, isOther]

theorem mem_places : place ∈ result.places ↔ ∃ column, result.ShownAt place column := by
  rw [places, List.mem_filter, isVisible_iff, List.mem_range, and_iff_right_iff_imp]
  rintro ⟨column, shown⟩
  exact (List.getElem?_eq_some_iff.mp shown.here).1

theorem pairwise_places (result : ResultSet) : result.places.Pairwise (· < ·) :=
  List.pairwise_lt_range.filter _

/-- The columns that are shown stand at their places. -/
theorem columns_visible (result : ResultSet) :
    List.Forall₂ (fun column place => result.columns[place]? = some column) result.visible.columns
      result.places :=
  forall₂_filterMap_getElem? fun _ member =>
    List.mem_range.mp (List.mem_filter.mp member).1

/-- A column is shown if it is one of those that are kept. -/
theorem shownAt_iff : result.ShownAt place column ↔
    ∃ index : Nat, result.places[index]? = some place ∧
      result.visible.columns[index]? = some column := by
  constructor
  · intro shown
    obtain ⟨index, kept⟩ := List.mem_iff_getElem?.mp (mem_places.mpr ⟨column, shown⟩)
    obtain ⟨found, isFound, here⟩ := exists_getElem?_of_forall₂ result.columns_visible.flip kept
    cases here.symm.trans shown.here
    exact ⟨index, kept, isFound⟩
  · rintro ⟨index, kept, isColumn⟩
    obtain ⟨found, shown⟩ := mem_places.mp (List.mem_of_getElem? kept)
    obtain ⟨other, isOther, here⟩ := exists_getElem?_of_forall₂ result.columns_visible isColumn
    cases isOther.symm.trans kept
    cases here.symm.trans shown.here
    exact shown

/-- The columns that are shown have different names. -/
theorem nodup_names_visible (result : ResultSet) :
    (result.visible.columns.map (·.name)).Nodup := by
  have different : (result.places.filterMap (result.columns[·]?)).Pairwise
      fun column other => column.name ≠ other.name := by
    refine List.pairwise_filterMap.mpr (result.pairwise_places.imp_of_mem ?_)
    intro place later member _ before column here other isOther
    obtain ⟨shown, isShown⟩ := mem_places.mp member
    cases here.symm.trans isShown.here
    exact (isShown.last later other before isOther).symm
  exact List.pairwise_map.mpr different

theorem values_visible {index : Nat} (kept : result.places[index]? = some place) :
    result.visible.values index = result.values place := by
  have cells : (result.rows.map (·.pick result.places)).map (Row.cell · index) =
      result.rows.map (Row.cell · place) := by
    rw [List.map_map]
    exact List.map_congr_left fun row _ => Row.cell_map kept
  exact congrArg (List.filter _) cells

theorem rectangular_visible (result : ResultSet) : result.visible.Rectangular := by
  intro row member
  obtain ⟨source, _, rfl⟩ := List.mem_map.mp member
  rw [result.columns_visible.length_eq]
  exact List.length_map ..

end Shown

/-! ## Tables of results -/

/-- Is a column shown that has no type? -/
structure Untypable (result : ResultSet) (place : Nat) (column : ResultColumn) : Prop where
  shown : result.ShownAt place column
  unfit : ¬ FitsDeclared column (result.values place)
  mixed : ¬ Compatible (result.values place)

/-- Does a cell stand for the one at a place of a row, as a value of a column? -/
def StandsFor (source : Row) (entry : Nat × Column) (cell : Cell) : Prop :=
  ∃ found, source[entry.1]? = some found ∧ found.coerce? entry.2.type = some cell ∧
    cell.isNull = found.isNull

/-- Does a table hold the columns at some places of a result, which are those that are shown, in all
of its rows? -/
structure Presents (result : ResultSet) (places : List Nat) (table : Table) : Prop where
  ordered : places.Pairwise (· < ·)
  shown : ∀ place, place ∈ places ↔ ∃ column, result.ShownAt place column
  named : places.map (fun place => result.columns[place]?.map (·.name)) =
    table.schema.names.map some
  filled : List.Forall₂ (fun source row =>
    List.Forall₂ (StandsFor source) (places.zip table.schema.columns) row) result.rows table.rows

variable {result : ResultSet} {schema : Schema} {place : Nat} {column : ResultColumn}

/-- A column that is shown has a type unless its values neither fit the declared one nor go
together. -/
theorem exists_columnType_iff (shown : result.ShownAt place column) :
    (∃ type, columnType column (result.values place) = .ok type) ↔
      ¬ result.Untypable place column := by
  have notNull : ∀ value ∈ result.values place, value.isNull = false :=
    fun value member => (mem_values.mp member).2
  rw [exists_columnType notNull]
  constructor
  · rintro (fits | compatible) untypable
    · exact untypable.unfit fits
    · exact untypable.mixed compatible
  · intro typable
    by_contra neither
    rw [not_or] at neither
    exact typable ⟨shown, neither.1, neither.2⟩

/-- What is wrong if no schema is inferred is that a column which is shown has no type. -/
theorem untypable_of_infer_error {error : RunError} (failed : result.visible.infer = .error error) :
    ∃ place column found, result.Untypable place column ∧
      error = .schemaMismatch column.name "values of one type" found := by
  obtain ⟨⟨column, index⟩, member, failed⟩ :=
    columnType_of_infer_error result.nodup_names_visible failed
  have isColumn := List.mk_mem_zipIdx_iff_getElem?.mp member
  obtain ⟨place, kept, _⟩ := exists_getElem?_of_forall₂ result.columns_visible isColumn
  have shown : result.ShownAt place column := shownAt_iff.mpr ⟨index, kept, isColumn⟩
  obtain ⟨found, isFound⟩ := error_of_columnType failed
  refine ⟨place, column, found, ?_, isFound⟩
  by_contra typable
  obtain ⟨type, typed⟩ := (exists_columnType_iff shown).mpr typable
  rw [← values_visible kept, failed] at typed
  cases typed

/-- A column without a type leaves no schema. -/
theorem Untypable.infer_ne_ok (untypable : result.Untypable place column) :
    result.visible.infer ≠ .ok schema := by
  intro inferred
  obtain ⟨index, kept, isColumn⟩ := shownAt_iff.mp untypable.shown
  obtain ⟨_, _, typed, _⟩ := exists_of_mem_left (columns_of_infer inferred)
    (List.mk_mem_zipIdx_iff_getElem?.mpr isColumn)
  rw [values_visible kept] at typed
  exact (exists_columnType_iff untypable.shown).mp ⟨_, typed⟩ untypable

/-- The table of the rows that are shown presents the result. -/
theorem presents_of_converted (rectangular : result.Rectangular) {table : Table}
    (inferred : result.visible.infer = .ok table.schema)
    (converted : List.Forall₂ (Converts table.schema) result.visible.rows table.rows) :
    result.Presents result.places table := by
  constructor
  case ordered => exact result.pairwise_places
  case shown => exact fun _ => mem_places
  case named =>
    rw [names_of_infer inferred, List.map_map, ← List.forall₂_eq_eq_eq,
      List.forall₂_map_left_iff, List.forall₂_map_right_iff]
    exact result.columns_visible.flip.imp fun place column here => by rw [here]; rfl
  case filled =>
    change List.Forall₂ _ (result.rows.map (·.pick result.places)) table.rows at converted
    rw [List.forall₂_map_left_iff] at converted
    refine forall₂_of_mem converted fun source isSource row each => ?_
    rw [Converts, Row.pick, List.zip_map_left, List.forall₂_map_left_iff] at each
    refine forall₂_of_mem each fun entry member cell coerced => ?_
    obtain ⟨column, shown⟩ := mem_places.mp (List.of_mem_zip member).1
    have inside : entry.1 < source.length := by
      rw [rectangular source isSource]
      exact (List.getElem?_eq_some_iff.mp shown.here).1
    have found : source[entry.1]? = some (source.cell entry.1) := by
      rw [Row.cell, List.getElem?_eq_getElem inside, Option.getD_some]
    exact ⟨source.cell entry.1, found, coerced, Cell.isNull_of_coerce? coerced⟩

/-- No schema is inferred exactly when a column is shown whose values neither fit its declared type
nor are of one type or numbers, and the error names such a column. With a schema the rows can be
converted, and they make a table that presents the result. -/
theorem infer_visible (rectangular : result.Rectangular) :
    ((∃ error, result.visible.infer = .error error) ↔
      ∃ place column, result.Untypable place column) ∧
      (∀ error, result.visible.infer = .error error →
        ∃ place column found, result.Untypable place column ∧
          error = .schemaMismatch column.name "values of one type" found) ∧
      ∀ schema, result.visible.infer = .ok schema → ∀ query : RawQuery,
        ∃ rows table, result.visible.conform schema = .ok rows ∧
          Table.ofRows query.name schema rows = .ok table ∧
          (query.schema = none → query.tableOf result.visible = .ok table) ∧
          table.schema = schema ∧ table.rows.length = result.rows.length ∧
          ∃ places, result.Presents places table := by
  refine ⟨⟨?_, ?_⟩, fun error => untypable_of_infer_error, ?_⟩
  · rintro ⟨error, failed⟩
    obtain ⟨place, column, _, untypable, _⟩ := untypable_of_infer_error failed
    exact ⟨place, column, untypable⟩
  · rintro ⟨place, column, untypable⟩
    cases outcome : result.visible.infer with
    | ok schema => exact absurd outcome untypable.infer_ne_ok
    | error error => exact ⟨error, rfl⟩
  · intro schema inferred query
    obtain ⟨rows, conforms, converted⟩ := exists_conform inferred
    obtain ⟨table, made, rfl, rfl⟩ :=
      exists_ofRows_of_conform inferred result.rectangular_visible converted query.name
    have presents := presents_of_converted rectangular inferred converted
    refine ⟨table.rows, table, conforms, made, fun undeclared => ?_, rfl,
      presents.filled.length_eq.symm, result.places, presents⟩
    simp only [RawQuery.tableOf, undeclared, inferred, conforms, made, ok_bind]
    rfl

/-- A result with the position and a column that a later one shadows. One column has the declared
type, one has integers and a double, and one has a text that its declared type does not fit. -/
def paidResult : ResultSet where
  columns := [⟨"x", some .int⟩, ⟨"__ord", some .int⟩, ⟨"paid", some .bool⟩, ⟨"x", none⟩,
    ⟨"note", some .int⟩]
  rows := [[.int 1, .int 0, .int 1, .int 2, .text "late"],
    [.int 5, .int 1, .null, .float 0.5, .null]]

/-- The schema of what `paidResult` shows. -/
def paidSchema : Schema where
  columns := [⟨"paid", .bool, true⟩, ⟨"x", .float, true⟩, ⟨"note", .text, true⟩]

/-- The schema of `paidResult` is found, and its table has the columns at the last three places. -/
theorem infer_visible_paidResult :
    paidResult.Rectangular ∧ paidResult.visible.infer = .ok paidSchema ∧
      ∃ table, (⟨"q", "", none, none⟩ : RawQuery).tableOf paidResult.visible = .ok table ∧
        table.schema = paidSchema ∧ ∃ places, paidResult.Presents places table := by
  have rectangular : paidResult.Rectangular := by decide
  have inferred : paidResult.visible.infer = .ok paidSchema := by rfl
  obtain ⟨rows, table, _, _, gives, sameSchema, _, presents⟩ :=
    (infer_visible rectangular).2.2 paidSchema inferred ⟨"q", "", none, none⟩
  exact ⟨rectangular, inferred, table, gives rfl, sameSchema, presents⟩

end ResultSet

end TablePipeline

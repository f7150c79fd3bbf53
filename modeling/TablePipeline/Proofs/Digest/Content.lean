import Mathlib
import TablePipeline.Artifact
import TablePipeline.Proofs.Chain.Soundness
import TablePipeline.Proofs.Digest.Encoding
import TablePipeline.Proofs.Number.Places

/-! # What the content of an artifact is

The content of a table is its shape and its cells, and that of a blob is its bytes; names, keys and
the columns that admit null are no part of it. The bytes that are hashed for an artifact determine
the content. Nothing separates the rows in them, and nothing separates a column from the next one.
But no encoding of a type or of a cell begins with that of another one, and the number of columns
says where a row ends.
-/

namespace TablePipeline

/-! ## Parts behind one another -/

namespace Bytes

/-- A number of fixed length can be told from what follows it. -/
theorem word_append_inj {value other : Nat} {rest rest' : Bytes} (small : value < 2 ^ 64)
    (small' : other < 2 ^ 64) (same : word value ++ rest = word other ++ rest') :
    value = other ∧ rest = rest' := by
  obtain ⟨words, rests⟩ := List.append_inj same (by rw [length_word, length_word])
  exact ⟨word_injOn small small' words, rests⟩

/-- Items whose encodings determine what is related to them determine it one by one, if as many of
them are encoded. -/
theorem forall₂_of_flatMap {α : Type} {encode : α → Bytes} {related : α → α → Prop}
    {items others : List α} {rest rest' : Bytes}
    (determines : ∀ item ∈ items, ∀ other ∈ others, ∀ {rest rest' : Bytes},
      encode item ++ rest = encode other ++ rest' → related item other ∧ rest = rest')
    (lengths : items.length = others.length)
    (same : items.flatMap encode ++ rest = others.flatMap encode ++ rest') :
    List.Forall₂ related items others ∧ rest = rest' := by
  induction items generalizing others with
  | nil =>
    cases List.length_eq_zero_iff.mp lengths.symm
    exact ⟨.nil, same⟩
  | cons item items ih =>
    cases others with
    | nil => cases lengths
    | cons other others =>
      rw [List.flatMap_cons, List.flatMap_cons, List.append_assoc, List.append_assoc] at same
      obtain ⟨first, same⟩ := determines item (.head _) other (.head _) same
      obtain ⟨others, rests⟩ := ih (fun item member other member' =>
        determines item (.tail _ member) other (.tail _ member')) (Nat.succ.inj lengths) same
      exact ⟨.cons first others, rests⟩

/-- Related items that are encoded alike are encoded alike together. -/
theorem flatMap_congr_forall₂ {α : Type} {encode : α → Bytes} {related : α → α → Prop}
    {items others : List α} (alike : ∀ item other, related item other → encode item = encode other)
    (all : List.Forall₂ related items others) : items.flatMap encode = others.flatMap encode := by
  induction all with
  | nil => rfl
  | cons first _ ih => rw [List.flatMap_cons, List.flatMap_cons, alike _ _ first, ih]

end Bytes

/-! ## Cells -/

namespace Cell

/-- Do two cells hold the same value? Cells of different kinds never do. -/
def Agrees : Cell → Cell → Prop
  | null, null => True
  | bool value, bool other => value = other
  | int value, int other => value = other
  | float value, float other => value == other ∨ value.isNaN ∧ other.isNaN
  | text value, text other => value = other
  | _, _ => False

theorem same_iff_agrees {cell other : Cell} : cell.same other = true ↔ cell.Agrees other := by
  rw [same, decide_eq_true_iff]
  cases cell <;> cases other <;> simp [canonical, Agrees, Number.canonical_inj]

/-- Is a text in the cell one that a memory can hold? -/
def Fits : Cell → Prop
  | text value => (Bytes.ofText value).Fits
  | _ => True

instance (cell : Cell) : Decidable cell.Fits :=
  match cell with
  | text value => inferInstanceAs (Decidable (Bytes.Fits (Bytes.ofText value)))
  | null | bool _ | int _ | float _ => isTrue trivial

theorem fits_canonical {cell : Cell} (fits : cell.Fits) : cell.canonical.Fits := by
  cases cell <;> exact fits

/-- What stands behind the mark of a canonical cell. -/
def payload : Cell → Bytes
  | null => []
  | bool value => [if value then 1 else 0]
  | int value => Bytes.word value.toUInt64.toNat
  | float value => Bytes.word value.toBits.toNat
  | text value => Bytes.counted (Bytes.ofText value)

theorem encodeCanonical_eq (cell : Cell) :
    cell.encodeCanonical = (cell.type?.map CellType.mark).getD 0 :: cell.payload := by
  cases cell <;> rfl

/-- The mark of a cell tells its type. -/
theorem type?_of_mark : ∀ {type? other? : Option CellType},
    (type?.map CellType.mark).getD 0 = (other?.map CellType.mark).getD 0 → type? = other? := by
  rintro (_ | _ | _ | _ | _) (_ | _ | _ | _ | _) <;> decide

/-- A canonical cell can be told from what follows it. -/
theorem encodeCanonical_append_inj {cell other : Cell} {rest rest' : Bytes} (fits : cell.Fits)
    (fits' : other.Fits)
    (same : cell.encodeCanonical ++ rest = other.encodeCanonical ++ rest') :
    cell = other ∧ rest = rest' := by
  rw [encodeCanonical_eq, encodeCanonical_eq, List.cons_append, List.cons_append] at same
  obtain ⟨marks, same⟩ := List.cons.inj same
  have types := type?_of_mark marks
  match cell, other, types with
  | null, null, _ => exact ⟨rfl, same⟩
  | bool value, bool other, _ =>
    obtain ⟨bytes, rests⟩ := List.cons.inj same
    refine ⟨congrArg bool ?_, rests⟩
    revert bytes
    cases value <;> cases other <;> decide
  | int value, int other, _ =>
    obtain ⟨values, rests⟩ := Bytes.word_append_inj (UInt64.toNat_lt _) (UInt64.toNat_lt _) same
    have words : value.toUInt64 = other.toUInt64 := UInt64.toNat_inj.mp values
    exact ⟨congrArg (int ∘ Int64.ofUInt64) words, rests⟩
  | float value, float other, _ =>
    obtain ⟨values, rests⟩ := Bytes.word_append_inj (UInt64.toNat_lt _) (UInt64.toNat_lt _) same
    exact ⟨congrArg float (Float.toBits_inj.mp (UInt64.toNat_inj.mp values)), rests⟩
  | text value, text other, _ =>
    obtain ⟨values, rests⟩ := Bytes.counted_append_inj fits fits' same
    exact ⟨congrArg text (Bytes.ofText_injective values), rests⟩

/-- The bytes of a cell determine it, up to the cells that are the same. -/
theorem encode_append_inj {cell other : Cell} {rest rest' : Bytes} (fits : cell.Fits)
    (fits' : other.Fits) (same : cell.encode ++ rest = other.encode ++ rest') :
    cell.same other = true ∧ rest = rest' := by
  obtain ⟨cells, rests⟩ :=
    encodeCanonical_append_inj (fits_canonical fits) (fits_canonical fits') same
  exact ⟨decide_eq_true cells, rests⟩

theorem fits_of_type {cell : Cell} (notText : cell.type? ≠ some .text) : cell.Fits := by
  cases cell with
  | text => exact absurd rfl notText
  | null | bool | int | float => trivial

/-- A canonical cell is determined by its bytes if nothing follows. -/
theorem encodeCanonical_injective : Function.Injective encodeCanonical := by
  intro cell other same
  have parts := same
  rw [encodeCanonical_eq, encodeCanonical_eq] at parts
  have types := type?_of_mark (List.cons.inj parts).1
  by_cases isText : cell.type? = some .text
  · cases cell with
    | null | bool | int | float => cases isText
    | text value =>
      cases other with
      | null | bool | int | float => cases types
      | text other =>
        -- the bytes of a text are all that is left, however long it is
        obtain ⟨-, bytes⟩ := List.append_inj (List.cons.inj same).2
          (by rw [Bytes.length_word, Bytes.length_word])
        exact congrArg text (Bytes.ofText_injective bytes)
  · exact (encodeCanonical_append_inj (fits_of_type isText) (fits_of_type (types ▸ isText))
      (congrArg (· ++ []) same)).1

/-- Cells are the same exactly when they have the same bytes. -/
theorem same_iff_encode {cell other : Cell} :
    cell.same other = true ↔ cell.encode = other.encode := by
  rw [same, decide_eq_true_iff]
  exact encodeCanonical_injective.eq_iff.symm

theorem encode_eq_of_same {cell other : Cell} (same : cell.same other = true) :
    cell.encode = other.encode :=
  congrArg encodeCanonical (of_decide_eq_true same)

end Cell

/-! ## Tables -/

namespace Table

theorem ofText_typeName (type : CellType) : Bytes.ofText type.name = match type with
    | .bool => [98, 111, 111, 108]
    | .int => [105, 54, 52]
    | .float => [102, 54, 52]
    | .text => [115, 116, 114] := by
  cases type <;> decide +kernel

/-- No name of a type begins with that of another one. -/
theorem typeName_append_inj {type other : CellType} {rest rest' : Bytes}
    (same : Bytes.ofText type.name ++ rest = Bytes.ofText other.name ++ rest') :
    type = other ∧ rest = rest' := by
  rw [ofText_typeName, ofText_typeName] at same
  cases type <;> cases other <;> simp_all

/-- Have two columns the same name and type? -/
def SameColumn (column other : Column) : Prop :=
  column.name = other.name ∧ column.type = other.type

instance (column other : Column) : Decidable (SameColumn column other) :=
  inferInstanceAs (Decidable (_ ∧ _))

theorem encodeColumn_append_inj {column other : Column} {rest rest' : Bytes}
    (fits : (Bytes.ofText column.name).Fits) (fits' : (Bytes.ofText other.name).Fits)
    (same : encodeColumn column ++ rest = encodeColumn other ++ rest') :
    SameColumn column other ∧ rest = rest' := by
  rw [encodeColumn, encodeColumn, List.append_assoc, List.append_assoc] at same
  obtain ⟨names, same⟩ := Bytes.counted_append_inj fits fits' same
  obtain ⟨types, rests⟩ := typeName_append_inj same
  exact ⟨⟨Bytes.ofText_injective names, types⟩, rests⟩

theorem encodeColumn_eq_of_same {column other : Column} (same : SameColumn column other) :
    encodeColumn column = encodeColumn other := by
  rw [encodeColumn, encodeColumn, same.1, same.2]

/-- A table that the constructors give. -/
inductive Built : Table → Prop where
  | ofRows {name : String} {schema : Schema} {rows : List Row} {table : Table}
      (made : ofRows name schema rows = .ok table) : Built table
  | ofColumns {name : String} {schema : Schema} {columns : List (List Cell)} {table : Table}
      (made : ofColumns name schema columns = .ok table) : Built table
  | empty (name : String) (schema : Schema) : Built (empty name schema)
  | rename {table : Table} (built : Built table) (name : String) : Built (table.rename name)

theorem Built.proper {table : Table} (built : table.Built) : table.Proper := by
  induction built with
  | ofRows made => exact proper_of_ofRows made
  | ofColumns made =>
    unfold Table.ofColumns at made
    split at made
    · exact proper_of_ofRows made
    · cases made
  | empty => nofun
  | rename _ _ ih => exact ih

/-- Every row has as many cells as there are columns. -/
theorem Proper.length_row {table : Table} (proper : table.Proper) {row : Row}
    (member : row ∈ table.rows) : row.length = table.schema.width :=
  (proper row member).length_eq.symm

/-- Does a table fit into memory: the numbers of its columns and rows are words, and so are the
lengths of its names and texts? -/
structure Fits (table : Table) : Prop where
  width : table.schema.width < 2 ^ 64
  count : table.rows.length < 2 ^ 64
  names : ∀ column ∈ table.schema.columns, (Bytes.ofText column.name).Fits
  cells : ∀ row ∈ table.rows, ∀ cell ∈ row, cell.Fits

/-- Have two tables the same columns, in name and type, and the same rows, cell by cell? -/
structure SameContent (table other : Table) : Prop where
  columns : List.Forall₂ SameColumn table.schema.columns other.schema.columns
  rows : List.Forall₂ (List.Forall₂ fun cell cell' => cell.same cell' = true) table.rows other.rows

/-- The bytes of a table determine its content. -/
theorem sameContent_of_encode {table other : Table} (proper : table.Proper)
    (proper' : other.Proper) (fits : table.Fits) (fits' : other.Fits)
    (same : table.encode = other.encode) : table.SameContent other := by
  rw [encode, encode] at same
  simp only [List.append_assoc, List.append_cancel_left_eq] at same
  obtain ⟨widths, same⟩ := Bytes.word_append_inj fits.width fits'.width same
  obtain ⟨columns, same⟩ := Bytes.forall₂_of_flatMap
    (fun column member column' member' =>
      encodeColumn_append_inj (fits.names column member) (fits'.names column' member'))
    widths same
  obtain ⟨counts, same⟩ := Bytes.word_append_inj fits.count fits'.count same
  obtain ⟨rows, _⟩ := Bytes.forall₂_of_flatMap
    (fun row member row' member' => Bytes.forall₂_of_flatMap
      (fun cell inRow cell' inRow' =>
        Cell.encode_append_inj (fits.cells row member cell inRow)
          (fits'.cells row' member' cell' inRow'))
      ((proper.length_row member).trans (widths.trans (proper'.length_row member').symm)))
    counts (congrArg (· ++ []) same)
  exact ⟨columns, rows⟩

/-- Tables with the same content have the same bytes. -/
theorem SameContent.encode_eq {table other : Table} (same : table.SameContent other) :
    table.encode = other.encode := by
  have columns := Bytes.flatMap_congr_forall₂
    (fun _ _ same => encodeColumn_eq_of_same same) same.columns
  have rows := Bytes.flatMap_congr_forall₂
    (fun _ _ cells => Bytes.flatMap_congr_forall₂ (fun _ _ same => Cell.encode_eq_of_same same)
      cells) same.rows
  rw [encode, encode, Schema.width, Schema.width, same.columns.length_eq, same.rows.length_eq,
    columns, rows]

end Table

/-! ## Artifacts -/

namespace Artifact

/-- An artifact whose table, if it is one, the constructors give. -/
inductive Built : Artifact → Prop where
  | table {value : Table} (built : value.Built) : Built (.table value)
  | blob (value : Blob) : Built (.blob value)

/-- Does an artifact fit into memory? -/
def Fits : Artifact → Prop
  | table value => value.Fits
  | blob value => value.bytes.Fits

/-- Are two artifacts blobs with the same bytes, or tables with the same content? -/
inductive SameContent : Artifact → Artifact → Prop where
  | table {value other : Table} (same : value.SameContent other) :
      SameContent (.table value) (.table other)
  | blob {value other : Blob} (same : value.bytes = other.bytes) :
      SameContent (.blob value) (.blob other)

theorem SameContent.of_table {value other : Table}
    (same : SameContent (.table value) (.table other)) : value.SameContent other := by
  cases same with
  | table same => exact same

theorem encode_table_ne_blob (value : Table) (other : Blob) : value.encode ≠ other.encode := by
  intro same
  have table : Bytes.ofText "table" = [116, 97, 98, 108, 101] := by decide +kernel
  have blob : Bytes.ofText "blob" = [98, 108, 111, 98] := by decide +kernel
  simp [Table.encode, Blob.encode, table, blob] at same

/-- Exactly the artifacts with the same content have the same bytes. Their cells are compared by
their values. -/
theorem encode_eq_iff_sameContent {artifact other : Artifact} (built : artifact.Built)
    (built' : other.Built) (fits : artifact.Fits) (fits' : other.Fits) :
    (artifact.encode = other.encode ↔ artifact.SameContent other) ∧
      ∀ cell cell' : Cell, cell.same cell' = true ↔ cell.Agrees cell' := by
  refine ⟨⟨fun same => ?_, fun same => ?_⟩, fun _ _ => Cell.same_iff_agrees⟩
  · cases built with
    | table built =>
      cases built' with
      | table built' =>
        exact .table (Table.sameContent_of_encode built.proper built'.proper fits fits' same)
      | blob => exact absurd same (encode_table_ne_blob _ _)
    | blob =>
      cases built' with
      | table => exact absurd same.symm (encode_table_ne_blob _ _)
      | blob =>
        have counted := List.append_cancel_left same
        have padded := congrArg (· ++ ([] : Bytes)) counted
        exact .blob (Bytes.counted_append_inj fits fits' padded).1
  · cases same with
    | table same => exact same.encode_eq
    | @blob value other same =>
      exact congrArg (fun bytes => Bytes.ofText "blob" ++ Bytes.counted bytes) same

/-- Readings, where a note may be missing. -/
def readingSchema : Schema where
  columns := [⟨"value", .float, true⟩, ⟨"note", .text, true⟩]

/-- The same columns, with a key and without missing values. -/
def keyedSchema : Schema where
  columns := [⟨"value", .float, false⟩, ⟨"note", .text, true⟩]
  primaryKey := [0]

/-- The sign of a zero, the name, the key and which columns admit null are no content, but the row
in which a note stands is. -/
theorem encode_eq_readings :
    let morning := table ⟨"morning", readingSchema,
      [[.float (-0.0), .null], [.float (0.0 / 0.0), .text "a"]]⟩
    let evening := table ⟨"evening", keyedSchema,
      [[.float 0.0, .null], [.float (0.0 / 0.0), .text "a"]]⟩
    let moved := table ⟨"evening", keyedSchema,
      [[.float 0.0, .text "a"], [.float (0.0 / 0.0), .null]]⟩
    morning.encode = evening.encode ∧ morning.encode ≠ moved.encode := by
  intro morning evening moved
  have builtMorning : morning.Built := .table (@Table.Built.ofRows "morning" readingSchema
    [[.float (-0.0), .null], [.float (0.0 / 0.0), .text "a"]] _ rfl)
  have builtEvening : evening.Built := .table (@Table.Built.ofRows "evening" keyedSchema
    [[.float 0.0, .null], [.float (0.0 / 0.0), .text "a"]] _ rfl)
  have builtMoved : moved.Built := .table (@Table.Built.ofRows "evening" keyedSchema
    [[.float 0.0, .text "a"], [.float (0.0 / 0.0), .null]] _ rfl)
  have fitsMorning : morning.Fits := by
    constructor <;> decide +kernel
  have fitsEvening : evening.Fits := by
    constructor <;> decide +kernel
  have fitsMoved : moved.Fits := by
    constructor <;> decide +kernel
  constructor
  · refine (encode_eq_iff_sameContent builtMorning builtEvening fitsMorning fitsEvening).1.mpr ?_
    refine .table ⟨?_, ?_⟩
    · decide
    · decide +kernel
  · intro same
    have content := (encode_eq_iff_sameContent builtMorning builtMoved fitsMorning fitsMoved).1.mp
      same
    exact absurd content.of_table.rows (by decide +kernel)

end Artifact

end TablePipeline

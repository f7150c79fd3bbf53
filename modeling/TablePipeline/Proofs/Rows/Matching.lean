import TablePipeline.Expr.Eval
import TablePipeline.Proofs.Number.Places
import TablePipeline.Proofs.Rows.Joining

/-! # Keys that match as comparisons do

Rows are joined by keys, and a key takes an integer as a double where the other side has doubles, while
a comparison never rounds. The two agree on cells of one type, and on numbers of which every integer is
a double: there, the rows that an index finds for a row are those that a loop over the right side finds
equal to it, in the same order. An integer that is no double has the key of a neighbour.
-/

namespace TablePipeline

/-! ## Cells -/

/-- Does the double nearest to an integer stand for it? -/
def Number.IsDouble (number : Int64) : Prop :=
  ofFloat (toFloat number) = ofInt number.toInt

instance (number : Int64) : Decidable (Number.IsDouble number) :=
  inferInstanceAs (Decidable (_ = _))

theorem Number.ofInt_inj {value other : Int} : ofInt value = ofInt other ↔ value = other := by
  constructor
  · intro same
    have units := Position.finite.inj same
    rw [Int.shiftLeft_eq, Int.shiftLeft_eq] at units
    exact Int.eq_of_mul_eq_mul_right (by positivity) units
  · rintro rfl
    rfl

namespace Cell

/-- The place of a number. -/
def place? : Cell → Option Number.Position
  | int value => some (Number.ofInt value.toInt)
  | float value => some (Number.ofFloat value)
  | _ => none

/-- Numbers compare equal exactly when they have one place. -/
theorem order?_eq_iff_place {a b : Cell} {place place' : Number.Position}
    (isPlace : a.place? = some place) (isPlace' : b.place? = some place') :
    a.order? b = some .eq ↔ place = place' := by
  cases a <;> cases isPlace <;> cases b <;> cases isPlace' <;>
    simp only [order?, Option.some.injEq, Number.Position.order_eq_eq]
  rw [compare_eq_iff_eq, Number.ofInt_inj]

/-- Cells of one type compare equal exactly when they are the same. -/
theorem order?_eq_iff_same {a b : Cell} (sameType : a.type? = b.type?) (notNull : a ≠ .null) :
    a.order? b = some .eq ↔ a.same b = true := by
  cases a <;> cases b <;> cases sameType <;>
    simp_all [order?, same, canonical, Number.Position.order_eq_eq, Number.ofFloat_eq_ofFloat,
      Int64.toInt_inj]

/-- Is the key of a cell, where the other side has doubles, at the place of the cell? -/
def KeepsPlace : Cell → Prop
  | null | float _ => True
  | int value => Number.IsDouble value
  | _ => False

theorem asFloat?_of_keepsPlace {cell : Cell} (keeps : cell.KeepsPlace) (notNull : cell ≠ .null) :
    ∃ value place, cell.asFloat? = some value ∧ cell.place? = some place ∧
      Number.ofFloat value = place := by
  cases cell with
  | null => exact absurd rfl notNull
  | bool | text => cases keeps
  | int value => exact ⟨_, _, rfl, rfl, keeps⟩
  | float value => exact ⟨_, _, rfl, rfl, rfl⟩

end Cell

/-- Can the keys of two cells be compared in place of the cells? -/
def JoinKeyColumn.Faithful (column : JoinKeyColumn) (a b : Cell) : Prop :=
  if column.widened then a.KeepsPlace ∧ b.KeepsPlace
  else a = .null ∨ b = .null ∨ a.type? = b.type?

namespace Row

theorem keyCell_null (widened : Bool) : keyCell widened .null = none := rfl

theorem keyCell_of_notNull {cell : Cell} (widened : Bool) (notNull : cell ≠ .null) :
    keyCell widened cell = if widened then cell.asFloat?.map Cell.float else some cell := by
  cases cell <;> first | exact absurd rfl notNull | rfl

/-- The keys of two cells are the same exactly when the cells compare equal. -/
theorem same_keyCell_iff {column : JoinKeyColumn} {a b : Cell} (faithful : column.Faithful a b) :
    (∃ key key', keyCell column.widened a = some key ∧ keyCell column.widened b = some key' ∧
      key'.same key = true) ↔ a.order? b = some .eq := by
  by_cases nullLeft : a = .null
  · subst nullLeft
    simp [keyCell_null, Cell.order?]
  by_cases nullRight : b = .null
  · subst nullRight
    cases a <;> simp [keyCell_null, Cell.order?]
  rw [keyCell_of_notNull _ nullLeft, keyCell_of_notNull _ nullRight]
  unfold JoinKeyColumn.Faithful at faithful
  cases wide : column.widened with
  | false =>
    have sameType : a.type? = b.type? := by simpa [wide, nullLeft, nullRight] using faithful
    rw [Cell.order?_eq_iff_same sameType nullLeft]
    simp [Cell.same, eq_comm]
  | true =>
    rw [wide, if_pos rfl] at faithful
    obtain ⟨value, place, isFloat, isPlace, rfl⟩ := Cell.asFloat?_of_keepsPlace faithful.1 nullLeft
    obtain ⟨value', place', isFloat', isPlace', rfl⟩ :=
      Cell.asFloat?_of_keepsPlace faithful.2 nullRight
    rw [Cell.order?_eq_iff_place isPlace isPlace', Number.ofFloat_eq_ofFloat, isFloat, isFloat']
    simp [Cell.same, Cell.canonical, eq_comm]

/-! ## Rows -/

/-- Do all key columns of two rows compare equal? -/
def Matches (columns : List JoinKeyColumn) (row other : Row) : Prop :=
  ∀ column ∈ columns, (row.cell column.left).order? (other.cell column.right) = some .eq

instance (columns : List JoinKeyColumn) (row other : Row) : Decidable (row.Matches columns other) :=
  inferInstanceAs (Decidable (∀ _ ∈ _, _))

/-- Rows have the same key exactly when their key columns compare equal. -/
theorem same_joinKey_iff {columns : List JoinKeyColumn} {row other : Row}
    (faithful : ∀ column ∈ columns,
      column.Faithful (row.cell column.left) (other.cell column.right)) :
    (∃ sought found,
      row.joinKey (columns.map fun column => (column.left, column.widened)) = some sought ∧
      other.joinKey (columns.map fun column => (column.right, column.widened)) = some found ∧
      found.same sought = true) ↔ row.Matches columns other := by
  induction columns with
  | nil => simp [joinKey, Matches, same]
  | cons column rest ih =>
    have here := same_keyCell_iff (faithful column (.head _))
    have others := ih fun column member => faithful column (.tail _ member)
    rw [Matches, List.forall_mem_cons, ← here]
    change _ ↔ _ ∧ row.Matches rest other
    rw [← others]
    simp only [joinKey, List.map_cons, List.mapM_cons, Option.bind_eq_bind, Option.pure_def,
      Option.bind_eq_some_iff, Option.some.injEq]
    constructor
    · rintro ⟨_, _, ⟨key, isKey, keys, areKeys, rfl⟩, ⟨key', isKey', keys', areKeys', rfl⟩, same⟩
      simp only [Row.same, List.map_cons, decide_eq_true_eq, List.cons.injEq] at same
      exact ⟨⟨key, key', isKey, isKey', decide_eq_true same.1⟩,
        keys, keys', areKeys, areKeys', decide_eq_true same.2⟩
    · rintro ⟨⟨key, key', isKey, isKey', same⟩, keys, keys', areKeys, areKeys', sameKeys⟩
      refine ⟨key :: keys, key' :: keys', ⟨key, isKey, keys, areKeys, rfl⟩,
        ⟨key', isKey', keys', areKeys', rfl⟩, ?_⟩
      rw [Row.same, decide_eq_true_eq, List.map_cons, List.map_cons,
        of_decide_eq_true same, of_decide_eq_true sameKeys]

end Row

/-- The pairs that a loop over both sides makes: for each left row, in order, the right rows whose key
columns compare equal to its own, in order. A left join keeps a row without any. -/
def nestedPairs (kind : JoinKind) (columns : List JoinKeyColumn) (left right : List Row) :
    List (Row × Option Row) :=
  left.flatMap fun row =>
    match kind, right.filter (row.Matches columns ·) with
    | .left, [] => [(row, none)]
    | _, partners => partners.map fun partner => (row, some partner)

section Pairs

variable {kind : JoinKind} {columns : List JoinKeyColumn} {left right : List Row}

/-- The partners of a row are the rows whose key columns compare equal to its own. -/
theorem joinPartners_eq_filter {row : Row}
    (faithful : ∀ other ∈ right, ∀ column ∈ columns,
      column.Faithful (row.cell column.left) (other.cell column.right)) :
    joinPartners id columns right row = right.filter (row.Matches columns ·) := by
  have mem (other : Row) (member : other ∈ right) := Row.same_joinKey_iff (faithful other member)
  rw [joinPartners]
  split
  · rename_i isNone
    refine (List.filter_eq_nil_iff.mpr fun other member => ?_).symm
    rw [decide_eq_true_eq, ← mem other member]
    rintro ⟨sought, _, isSought, _⟩
    rw [isNone] at isSought
    cases isSought
  · rename_i sought isSought
    refine List.filter_congr fun other member => ?_
    rw [Bool.eq_iff_iff, decide_eq_true_eq, ← mem other member]
    split
    · rename_i isNone
      change other.joinKey _ = none at isNone
      simp [isNone]
    · rename_i found isFound
      change other.joinKey _ = some found at isFound
      simp [isSought, isFound]

/-- An index joins rows as a loop over both sides does. -/
theorem joinPairs_eq_nestedPairs
    (faithful : ∀ row ∈ left, ∀ other ∈ right, ∀ column ∈ columns,
      column.Faithful (row.cell column.left) (other.cell column.right)) :
    joinPairs id kind columns left right = nestedPairs kind columns left right := by
  rw [joinPairs_eq_flatMap, nestedPairs]
  refine List.flatMap_congr fun row member => ?_
  rw [id, joinPartners_eq_filter (faithful row member)]
  cases kind <;> cases right.filter (row.Matches columns ·) <;> rfl

end Pairs

end TablePipeline

import TablePipeline.Proofs.Digest.Content
import TablePipeline.Proofs.Number.Truncation
import TablePipeline.Proofs.Rows.Matching
import TablePipeline.Proofs.Rows.Sorting

/-! # Cells that are numbers

Integers and doubles are ordered by the numbers that they stand for, whichever of the two are
compared: nothing is rounded, both zeros are zero, and NaN is above plus infinity. So their order is
total. It is found by the bits of two doubles, and by the parts of a double beside an integer. Within
one type, the cells that are equal in it are those of one group, and these are the cells whose bytes
are hashed alike.
-/

namespace TablePipeline.Cell

/-- The number that a cell stands for, if it holds one; NaN is above all. -/
noncomputable def standsFor? : Cell → Option (WithTop EReal)
  | int value => some ((value.toInt : ℝ) : EReal)
  | float value => some (Number.exactNumber value.toModel.unpack)
  | _ => none

/-- The order of two cells, found by the bits of two doubles and by the parts of a double beside an
integer. -/
def orderByForm? : Cell → Cell → Option Ordering
  | float a, float b => some (Number.orderByBits a b)
  | int a, float b => some (Number.orderByParts a b)
  | float a, int b => some (Number.orderByParts b a).swap
  | a, b => a.order? b

theorem orderByForm?_eq (a b : Cell) : a.orderByForm? b = a.order? b := by
  cases a with
  | float a =>
    cases b with
    | float b => exact congrArg some (Number.orderByBits_eq a b)
    | int b =>
      exact congrArg some ((congrArg Ordering.swap (Number.orderByParts_eq b a)).trans
        (Number.Position.swap_order _ _))
    | null | bool | text => rfl
  | int a =>
    cases b with
    | float b => exact congrArg some (Number.orderByParts_eq a b)
    | null | bool | int | text => rfl
  | null | bool | text => rfl

/-- The number in a cell is the one at its place. -/
theorem exists_place {cell : Cell} {number : WithTop EReal} (isNumber : cell.standsFor? = some number) :
    ∃ place, cell.place? = some place ∧ place.number = number := by
  cases cell with
  | null | bool | text => cases isNumber
  | int value =>
    cases isNumber
    exact ⟨_, rfl, Number.number_ofInt value.toInt⟩
  | float value =>
    cases isNumber
    exact ⟨_, rfl, Number.number_place (Number.representable_unpack _)⟩

/-- Numbers are compared as their places are. -/
theorem order?_of_place {a b : Cell} {place place' : Number.Position}
    (isPlace : a.place? = some place) (isPlace' : b.place? = some place') :
    a.order? b = some (place.order place') := by
  cases a with
  | null | bool | text => cases isPlace
  | int a =>
    cases isPlace
    cases b with
    | null | bool | text => cases isPlace'
    | int b =>
      cases isPlace'
      exact congrArg some (order_ofInt _ _).symm
    | float b =>
      cases isPlace'
      rfl
  | float a =>
    cases isPlace
    cases b with
    | null | bool | text => cases isPlace'
    | int b | float b =>
      cases isPlace'
      rfl

section Numbers

variable {a b c : Cell} {x y z : WithTop EReal} (isX : a.standsFor? = some x) (isY : b.standsFor? = some y)
  (isZ : c.standsFor? = some z)

include isX isY

/-- Numbers are compared exactly. -/
theorem order?_eq_cmp : a.order? b = some (cmp x y) := by
  obtain ⟨place, isPlace, rfl⟩ := exists_place isX
  obtain ⟨place', isPlace', rfl⟩ := exists_place isY
  rw [order?_of_place isPlace isPlace', (Number.Position.compares_number place place').cmp_eq]

theorem order?_swap_of_numbers : b.order? a = (a.order? b).map Ordering.swap := by
  rw [order?_eq_cmp isX isY, order?_eq_cmp isY isX, Option.map_some, cmp_swap]

include isZ

theorem order?_trans_of_numbers {outcome : Ordering} (first : a.order? b = some outcome)
    (second : b.order? c = some outcome) : a.order? c = some outcome := by
  rw [order?_eq_cmp isX isY, Option.some.injEq] at first
  rw [order?_eq_cmp isY isZ, Option.some.injEq] at second
  rw [order?_eq_cmp isX isZ, Option.some.injEq]
  cases outcome with
  | lt => exact (cmp_eq_lt_iff _ _).mpr (((cmp_eq_lt_iff _ _).mp first).trans
      ((cmp_eq_lt_iff _ _).mp second))
  | eq => exact (cmp_eq_eq_iff _ _).mpr (((cmp_eq_eq_iff _ _).mp first).trans
      ((cmp_eq_eq_iff _ _).mp second))
  | gt => exact (cmp_eq_gt_iff _ _).mpr (((cmp_eq_gt_iff _ _).mp second).trans
      ((cmp_eq_gt_iff _ _).mp first))

theorem order?_ne_gt_trans (first : a.order? b ≠ some .gt) (second : b.order? c ≠ some .gt) :
    a.order? c ≠ some .gt := by
  rw [order?_eq_cmp isX isY, Ne, Option.some.injEq, cmp_eq_gt_iff, not_lt] at first
  rw [order?_eq_cmp isY isZ, Ne, Option.some.injEq, cmp_eq_gt_iff, not_lt] at second
  rw [order?_eq_cmp isX isZ, Ne, Option.some.injEq, cmp_eq_gt_iff, not_lt]
  exact first.trans second

end Numbers

/-- Numbers are totally ordered by what they stand for, and within a type the cells that are equal in
this order are those that are the same, which are those with the same bytes. -/
theorem ordered_by_value (a b c : Cell) :
    a.orderByForm? b = a.order? b ∧
    (∀ x y, a.standsFor? = some x → b.standsFor? = some y →
      a.order? b = some (cmp x y) ∧
      b.order? a = (a.order? b).map Ordering.swap ∧
      ∀ z, c.standsFor? = some z →
        (∀ outcome, a.order? b = some outcome → b.order? c = some outcome →
          a.order? c = some outcome) ∧
        (a.order? b ≠ some .gt → b.order? c ≠ some .gt → a.order? c ≠ some .gt)) ∧
    (a.type? = b.type? → a ≠ .null → (a.order? b = some .eq ↔ a.same b = true)) ∧
    (a.same b = true ↔ a.encode = b.encode) := by
  refine ⟨orderByForm?_eq a b, fun x y isX isY => ⟨order?_eq_cmp isX isY,
    order?_swap_of_numbers isX isY, fun z isZ => ⟨fun outcome first second => ?_,
      fun first second => ?_⟩⟩, order?_eq_iff_same, same_iff_encode⟩
  · exact order?_trans_of_numbers isX isY isZ first second
  · exact order?_ne_gt_trans isX isY isZ first second

/-- An integer that is no double is between its neighbour and plus infinity, and the two zeros are
the same. -/
theorem ordered_largeNumbers :
    (float 9007199254740992.0).order? (float (1.0 / 0.0)) = some .lt ∧
    (int 9007199254740993).order? (float 9007199254740992.0) = some .gt ∧
    (float (-0.0)).order? (float 0.0) = some .eq ∧
    (float (-0.0)).encode = (float 0.0).encode := by
  have zeros : (float (-0.0)).same (float 0.0) = true := by decide +kernel
  have below : (float 9007199254740992.0).order? (int 9007199254740993) = some .lt := by
    decide +kernel
  have bounded : (int 9007199254740993).order? (float (1.0 / 0.0)) = some .lt := by
    decide +kernel
  obtain ⟨-, numbers, -, -⟩ := ordered_by_value (float 9007199254740992.0) (int 9007199254740993)
    (float (1.0 / 0.0))
  obtain ⟨-, reversed, transitive⟩ := numbers _ _ rfl rfl
  obtain ⟨-, -, equal, encoded⟩ := ordered_by_value (float (-0.0)) (float 0.0) .null
  refine ⟨(transitive _ rfl).1 _ below bounded, ?_, (equal rfl nofun).mpr zeros, encoded.mp zeros⟩
  rw [reversed, below]
  rfl

end TablePipeline.Cell

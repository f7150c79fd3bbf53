import TablePipeline.Proofs.Expr.Soundness
import TablePipeline.Proofs.Number.Places
import TablePipeline.Proofs.Rows.Sorting

/-! # Rows in order

Rows whose key cells compare are in a total preorder, so there is one way to put them in order that
leaves tied rows as they were. Rows are numbered to tell it: of two tied rows, the one with the smaller
number comes first. Under each key, and among rows that the keys before it do not tell apart, nulls are
at the end that the key names, and the values go up or down.
-/

namespace TablePipeline

/-- Cells that one column admits compare. -/
theorem Column.Admits.comparable {column : Column} {a b : Cell} (admitted : column.Admits a)
    (admitted' : column.Admits b) : a.Comparable b :=
  Cell.order?_isSome_of_admits (.inl rfl) admitted admitted'

/-! ## Cells under one key -/

namespace Cell

/-- What is no number is above all numbers. -/
theorem order?_of_isNaN {value : Float} (isNaN : value.isNaN = true) :
    (∀ number, (float value).order? (int number) = some .gt) ∧
      ∀ other, other.isNaN = false → (float value).order? (float other) = some .gt := by
  rw [Float.isNaN_eq_decide_eq_nan, decide_eq_true_eq] at isNaN
  subst isNaN
  have placed : Number.ofFloat .nan = .nan := by decide +kernel
  have above {place : Number.Position} (isNumber : place ≠ .nan) :
      Number.Position.order .nan place = .gt := by
    cases place <;> first | rfl | exact absurd rfl isNumber
  constructor
  · intro number
    rw [order?, placed, Number.ofInt, above (by simp)]
  · intro other isNumber
    rw [order?, placed, above]
    intro same
    rcases Number.canonical_inj.mp (Number.ofFloat_eq_ofFloat.mp (same.trans placed.symm)) with
      equal | ⟨isNaN, _⟩
    · exact (Float.beq_iff_ne_nan_and_eq.mp equal).2.1 rfl
    · rw [isNumber] at isNaN
      cases isNaN

end Cell

namespace OrderKey

/-- The key of the other direction. -/
def reversed (key : OrderKey) : OrderKey :=
  { key with descending := !key.descending }

/-- The other direction turns the order of values around, and leaves nulls where they are. -/
theorem compare_reversed (key : OrderKey) (a b : Cell) :
    key.reversed.compare a b =
      if a.isNull || b.isNull then key.compare a b else (key.compare a b).swap := by
  obtain ⟨column, descending, nulls⟩ := key
  cases left : a.isNull <;> cases right : b.isNull <;> simp only [compare, reversed, left, right]
  · cases descending <;> simp
  all_goals rfl

/-- May a cell stand before another one? Nulls stand at the end that the key names, and values go in its
direction. -/
structure InOrder (key : OrderKey) (a b : Cell) : Prop where
  nullsFirst : key.nulls = .first → b = .null → a = .null
  nullsLast : key.nulls = .last → a = .null → b = .null
  ascending : key.descending = false → a ≠ .null → b ≠ .null →
    ∃ order, a.order? b = some order ∧ order ≠ .gt
  descending : key.descending = true → a ≠ .null → b ≠ .null →
    ∃ order, a.order? b = some order ∧ order ≠ .lt

theorem inOrder_of_compare {key : OrderKey} {a b : Cell} (comparable : a.Comparable b)
    (notAfter : key.compare a b ≠ .gt) : key.InOrder a b := by
  have isNull {cell : Cell} (notNull : cell ≠ .null) : cell.isNull = false := by
    cases cell <;> first | rfl | exact absurd rfl notNull
  have values (left : a ≠ .null) (right : b ≠ .null) : ∃ order, a.order? b = some order ∧
      (if key.descending then order.swap else order) ≠ .gt := by
    obtain ⟨order, ordered⟩ := Option.isSome_iff_exists.mp (comparable (isNull left) (isNull right))
    refine ⟨order, ordered, ?_⟩
    simpa only [compare, isNull left, isNull right, ordered, Option.getD_some] using notAfter
  refine ⟨fun first right => ?_, fun last left => ?_, fun up left right => ?_, fun down left right => ?_⟩
  · subst right
    by_contra left
    refine notAfter ?_
    simp only [compare, isNull left, first]
    rfl
  · subst left
    by_contra right
    refine notAfter ?_
    simp only [compare, isNull right, last]
    rfl
  · obtain ⟨order, ordered, forward⟩ := values left right
    exact ⟨order, ordered, by simpa [up] using forward⟩
  · obtain ⟨order, ordered, backward⟩ := values left right
    refine ⟨order, ordered, ?_⟩
    rw [if_pos down] at backward
    rintro rfl
    exact backward rfl

end OrderKey

/-! ## Rows under several keys -/

namespace Row

variable {keys : List (Nat × OrderKey)} {rows : List Row}

/-- The keys in front decide unless they tie. -/
theorem compare_append (front back : List (Nat × OrderKey)) (a b : Row) :
    compare (front ++ back) a b = (compare front a b).then (compare back a b) := by
  induction front with
  | nil => rfl
  | cons key rest ih =>
    rw [List.cons_append, compare, compare, ih, Ordering.then_assoc]

/-- Are rows in a total preorder? -/
structure Preorders (keys : List (Nat × OrderKey)) (rows : List Row) : Prop where
  refl : ∀ a ∈ rows, compare keys a a = .eq
  total : ∀ a ∈ rows, ∀ b ∈ rows, compare keys a b ≠ .gt ∨ compare keys b a ≠ .gt
  trans : ∀ a ∈ rows, ∀ b ∈ rows, ∀ c ∈ rows, compare keys a b ≠ .gt → compare keys b c ≠ .gt →
    compare keys a c ≠ .gt
  /-- Two rows tie, or they are in one order and not in the other. -/
  swap : ∀ a ∈ rows, ∀ b ∈ rows, compare keys b a = (compare keys a b).swap

/-- Is a numbered row put before another one: by the keys or, where they tie, by its number? -/
def Before (keys : List (Nat × OrderKey)) (a b : Row × Nat) : Prop :=
  compare keys a.1 b.1 = .lt ∨ (compare keys a.1 b.1 = .eq ∧ a.2 < b.2)

namespace Preorders

variable {a b c : Row} (preorder : Preorders keys rows) (left : a ∈ rows) (middle : b ∈ rows)

include preorder left middle

theorem not_gt_iff : compare keys a b ≠ .gt ↔ compare keys b a ≠ .lt := by
  rw [preorder.swap a left b middle]
  cases compare keys a b <;> simp

/-- Of two rows one at most is before the other. -/
theorem not_before {place other : Nat} (before : Before keys (a, place) (b, other)) :
    ¬ Before keys (b, other) (a, place) := by
  unfold Before at before ⊢
  dsimp only at before ⊢
  rw [preorder.swap a left b middle]
  rcases before with less | ⟨tie, less⟩
  · simp [less]
  · simp only [tie, Ordering.swap_eq, reduceCtorEq, true_and, false_or]
    omega

variable (right : c ∈ rows)

include right

/-- What is above a row is above all rows that are not above this one. -/
theorem lt_of_not_gt_of_lt (first : compare keys a b ≠ .gt) (second : compare keys b c = .lt) :
    compare keys a c = .lt := by
  by_contra notLess
  rw [← Ne, ← preorder.not_gt_iff right left] at notLess
  have backward := preorder.trans c right a left b middle notLess first
  rw [preorder.swap b middle c right, second] at backward
  exact backward rfl

/-- What is below a row is below all rows that are not below this one. -/
theorem lt_of_lt_of_not_gt (first : compare keys a b = .lt) (second : compare keys b c ≠ .gt) :
    compare keys a c = .lt := by
  by_contra notLess
  rw [← Ne, ← preorder.not_gt_iff right left] at notLess
  have backward := preorder.trans b middle c right a left second notLess
  rw [preorder.swap a left b middle, first] at backward
  exact backward rfl

end Preorders

section Comparable

variable (comparable : ∀ key ∈ keys, ∀ a ∈ rows, ∀ b ∈ rows,
  (a.cell key.1).Comparable (b.cell key.1))

include comparable

theorem preorders_of_comparable : Preorders keys rows := by
  have byRank {a b : Row} (left : a ∈ rows) (right : b ∈ rows) : compare keys a b = rank keys a b :=
    compare_eq_rank fun key member => comparable key member a left b right
  have isLE {order : Ordering} : order ≠ .gt ↔ order.isLE = true := by cases order <;> simp
  refine ⟨fun a left => ?_, fun a left b right => ?_, fun a left b middle c right first second => ?_,
    fun a left b right => ?_⟩
  · rw [byRank left left]
    exact Std.ReflCmp.compare_self
  · rw [byRank left right, byRank right left, isLE, isLE, ← Bool.or_eq_true_iff]
    exact rank_total a b
  · rw [byRank left middle, isLE] at first
    rw [byRank middle right, isLE] at second
    rw [byRank left right, isLE]
    exact rank_trans a b c first second
  · rw [byRank right left, byRank left right]
    exact rank_swap keys a b

/-- Sorted rows come one before another, tied ones as they were numbered. -/
theorem pairwise_sortRows {items : List (Row × Nat)} (within : ∀ item ∈ items, item.1 ∈ rows)
    (numbered : items.Pairwise fun a b => a.2 < b.2) :
    (sortRows keys (·.1) items).Pairwise (Before keys) := by
  let le (a b : Row × Nat) : Bool := (rank keys a.1 b.1).isLE
  have trans (a b c : Row × Nat) : le a b → le b c → le a c := rank_trans a.1 b.1 c.1
  have total (a b : Row × Nat) : le a b || le b a := rank_total a.1 b.1
  rw [sortRows_eq_mergeSort fun key member a left b right =>
    comparable key member a.1 (within a left) b.1 (within b right)]
  change (items.mergeSort le).Pairwise (Before keys)
  have sorted := List.pairwise_mergeSort trans total items
  rw [List.pairwise_iff_forall_sublist] at sorted ⊢
  intro a b placed
  have member {item : Row × Nat} (inPair : item ∈ [a, b]) : item.1 ∈ rows :=
    within item (List.mem_mergeSort.mp (placed.subset inPair))
  rw [Before, compare_eq_rank fun key isKey =>
    comparable key isKey a.1 (member (by simp)) b.1 (member (by simp))]
  have ordered : (rank keys a.1 b.1).isLE = true := sorted placed
  cases order : rank keys a.1 b.1 with
  | lt => exact .inl rfl
  | gt =>
    rw [order] at ordered
    cases ordered
  | eq =>
    -- the rows that tie with `a` are in the order in which they were
    refine .inr ⟨rfl, ?_⟩
    let tied (item : Row × Nat) : Bool := rank keys a.1 item.1 == .eq
    have inOrder : (items.filter tied).Pairwise fun x y => le x y = true := by
      refine List.pairwise_of_forall_mem_list fun x left y right => trans x a y ?_ ?_
      · change (rank keys x.1 a.1).isLE = true
        rw [rank_swap keys a.1 x.1, eq_of_beq (List.mem_filter.mp left).2]
        rfl
      · change (rank keys a.1 y.1).isLE = true
        rw [eq_of_beq (List.mem_filter.mp right).2]
        rfl
    have kept : (items.mergeSort le).filter tied = items.filter tied := by
      rw [filter_mergeSort trans total, List.mergeSort_of_pairwise inOrder]
    have both : [a, b].filter tied = [a, b] := by
      have self : rank keys a.1 a.1 = .eq := Std.ReflCmp.compare_self
      simp [tied, self, order]
    have unmoved := placed.filter tied
    rw [both, kept] at unmoved
    exact List.pairwise_iff_forall_sublist.mp numbered (unmoved.trans List.filter_sublist)

end Comparable

end Row

/-! ## The sorted rows -/

/-- Is this a way to put rows in order: all of them, each before the next? -/
structure Arranges (keys : List (Nat × OrderKey)) (rows : List Row) (arranged : List (Row × Nat)) :
    Prop where
  perm : arranged.Perm rows.zipIdx
  ordered : arranged.Pairwise (Row.Before keys)

/-- Are rows sorted in the one way that leaves tied rows as they were, and under every key as it says? -/
structure SortsStably (keys : List (Nat × OrderKey)) (rows sorted : List Row) : Prop where
  arranged : ∃ arranged, Arranges keys rows arranged ∧ sorted = arranged.map (·.1) ∧
    ∀ other, Arranges keys rows other → other = arranged
  inOrder : ∀ {front back : List (Nat × OrderKey)} {position : Nat} {key : OrderKey},
    keys = front ++ (position, key) :: back →
      sorted.Pairwise fun a b => Row.compare front a b = .eq →
        key.InOrder (a.cell position) (b.cell position)

section Comparable

variable {keys : List (Nat × OrderKey)} {rows : List Row}

theorem pairwise_numbers_zipIdx {α : Type} (items : List α) :
    items.zipIdx.Pairwise fun a b => a.2 < b.2 := by
  have numbers : (items.zipIdx.map (·.2)).Pairwise (· < ·) := by
    rw [List.zipIdx_map_snd]
    exact List.pairwise_lt_range'
  exact List.pairwise_map.mp numbers

/-- Rows are sorted as numbered rows are. -/
theorem sortRows_eq_map (keys : List (Nat × OrderKey)) (rows : List Row) :
    sortRows keys id rows = (sortRows keys (·.1) rows.zipIdx).map (·.1) := by
  have mapped := List.map_mergeSort (r := fun a b : Row × Nat => Row.compare keys a.1 b.1 != .gt)
    (s := fun a b => Row.compare keys a b != .gt) (f := (·.1)) (l := rows.zipIdx)
    fun _ _ _ _ => rfl
  rw [List.zipIdx_map_fst] at mapped
  exact mapped.symm

variable (comparable : ∀ key ∈ keys, ∀ a ∈ rows, ∀ b ∈ rows,
  (a.cell key.1).Comparable (b.cell key.1))

include comparable

theorem arranges_sortRows : Arranges keys rows (sortRows keys (·.1) rows.zipIdx) where
  perm := List.mergeSort_perm _ _
  ordered := Row.pairwise_sortRows comparable (fun _ => List.fst_mem_of_mem_zipIdx)
    (pairwise_numbers_zipIdx rows)

/-- There is one way only to put rows in order. -/
theorem Arranges.unique {first second : List (Row × Nat)} (arranges : Arranges keys rows first)
    (arranges' : Arranges keys rows second) : first = second := by
  have preorder := Row.preorders_of_comparable comparable
  refine List.Perm.eq_of_pairwise (fun a b left right forward backward => ?_) arranges.ordered
    arranges'.ordered (arranges.perm.trans arranges'.perm.symm)
  have isRow {item : Row × Nat} (member : item ∈ rows.zipIdx) : item.1 ∈ rows :=
    List.fst_mem_of_mem_zipIdx member
  exact absurd backward (preorder.not_before (isRow (arranges.perm.subset left))
    (isRow (arranges'.perm.subset right)) forward)

theorem sortsStably_sortRows : SortsStably keys rows (sortRows keys id rows) where
  arranged := ⟨_, arranges_sortRows comparable, sortRows_eq_map keys rows, fun _ arranges =>
    arranges.unique comparable (arranges_sortRows comparable)⟩
  inOrder {front back position key} split := by
    rw [sortRows_eq_map, List.pairwise_map]
    refine (arranges_sortRows comparable).ordered.imp_of_mem fun {a b} left right before tie => ?_
    have isRow {item : Row × Nat} (member : item ∈ sortRows keys (·.1) rows.zipIdx) :
        item.1 ∈ rows :=
      List.fst_mem_of_mem_zipIdx ((arranges_sortRows comparable).perm.subset member)
    have isKey : (position, key) ∈ keys := split ▸ List.mem_append_right _ (List.mem_cons_self ..)
    refine OrderKey.inOrder_of_compare
      (comparable _ isKey a.1 (isRow left) b.1 (isRow right)) fun after => ?_
    have whole : Row.compare keys a.1 b.1 = .gt := by
      rw [split, Row.compare_append, tie, Row.compare, after]
      rfl
    rcases before with less | ⟨same, _⟩
    · rw [whole] at less
      cases less
    · rw [whole] at same
      cases same

end Comparable

end TablePipeline

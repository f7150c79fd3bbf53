import TablePipeline.Rows.Order

/-! # Sorting rows and keeping some of them

Only cells of one kind compare, and cells that do not compare tie; so the order of rows under keys
is no preorder on all rows. It extends to one: `Cell.rank` puts the kinds one after another and
agrees with the order of cells wherever that is defined. On rows whose key cells compare with each
other the stable sort is therefore the sort by a total preorder, and keeping the rows that satisfy
a condition commutes with it. The values of the columns that are not keys play no part.
-/

namespace TablePipeline

namespace Cell

/-- The kind of a cell; cells of different kinds do not compare. -/
def kind : Cell → Nat
  | bool _ => 0
  | int _ | float _ => 1
  | text _ => 2
  | null => 3

/-- The place of a truth value or a number on one line; the other cells are one point of it. -/
def place : Cell → Number.Position
  | bool value => .finite value.toNat
  | int value => Number.ofInt value.toInt
  | float value => Number.ofFloat value
  | text _ | null => .finite 0

/-- The text of a cell that holds one, and no text for the others. -/
def spelling : Cell → String
  | text value => value
  | _ => ""

/-- A total preorder on all cells that extends the order of comparable ones. -/
def rank : Cell → Cell → Ordering :=
  compareLex (compareOn kind) <|
    compareLex (compareOn (·.place.region)) <|
      compareLex (compareOn (·.place.offset)) (compareOn spelling)

instance : Std.TransCmp rank :=
  inferInstanceAs (Std.TransCmp (compareLex _ _))

/-- May two cells meet in one column of an ordering? Nulls may meet every cell. -/
def Comparable (a b : Cell) : Prop :=
  a.isNull = false → b.isNull = false → (a.order? b).isSome

instance (a b : Cell) : Decidable (a.Comparable b) :=
  inferInstanceAs (Decidable (_ → _ → _))

/-- All integers lie in one region, and their unit counts grow with them. -/
theorem order_ofInt (a b : Int) :
    (Number.ofInt a).order (Number.ofInt b) = compare a b := by
  have positive : (0 : Int) < 2 ^ Number.unitExponent := Int.pow_pos (by decide)
  have regions : compare (Number.ofInt a).region (Number.ofInt b).region = .eq :=
    Nat.compare_eq_eq.mpr rfl
  rw [Number.Position.order, regions, Ordering.eq_then]
  simp only [Number.ofInt, Number.Position.offset, Int.shiftLeft_eq, Int.compare_eq_ite_lt,
    Int.mul_lt_mul_right positive]

/-- Where the order of cells is defined, the preorder agrees with it. -/
theorem rank_of_order? {a b : Cell} {order : Ordering} (comparable : a.order? b = some order) :
    a.rank b = order := by
  have numeric (a b : Cell) (kinds : a.kind = b.kind) (spellings : a.spelling = b.spelling) :
      a.rank b = a.place.order b.place := by
    simp [rank, compareLex, compareOn, kinds, spellings, Number.Position.order]
  cases a <;> cases b <;> simp only [order?, Option.some.injEq, reduceCtorEq] at comparable <;>
    subst comparable
  case bool.bool x y => cases x <;> cases y <;> rfl
  case int.int x y => exact (numeric (int x) (int y) rfl rfl).trans (order_ofInt _ _)
  case int.float => exact numeric _ _ rfl rfl
  case float.int => exact numeric _ _ rfl rfl
  case float.float => exact numeric _ _ rfl rfl
  case text.text x y =>
    simp [rank, compareLex, compareOn, kind, place, spelling]

end Cell

namespace OrderKey

/-- The end that a key sends nulls to, as a number below or above that of all values. -/
def nullRank (key : OrderKey) (cell : Cell) : Nat :=
  match key.nulls with
  | .first => if cell.isNull then 0 else 1
  | .last => if cell.isNull then 1 else 0

/-- The total preorder under a key: nulls at their end, and values by their rank. -/
def rank (key : OrderKey) : Cell → Cell → Ordering :=
  compareLex (compareOn key.nullRank) (if key.descending then fun a b => b.rank a else Cell.rank)

instance (key : OrderKey) : Std.TransCmp key.rank := by
  unfold rank
  split <;> infer_instance

/-- On comparable cells a key orders by its total preorder. -/
theorem compare_eq_rank (key : OrderKey) {a b : Cell} (comparable : a.Comparable b) :
    key.compare a b = key.rank a b := by
  have ends : (compareOn key.nullRank) a b = match a.isNull, b.isNull with
      | true, false => if key.nulls = .first then .lt else .gt
      | false, true => if key.nulls = .first then .gt else .lt
      | _, _ => .eq := by
    cases nulls : key.nulls <;> cases left : a.isNull <;> cases right : b.isNull <;>
      simp [compareOn, nullRank, nulls, left, right] <;> rfl
  cases left : a.isNull <;> cases right : b.isNull <;>
    simp only [compare, rank, compareLex, ends, left, right]
  · obtain ⟨order, ordered⟩ := Option.isSome_iff_exists.mp (comparable left right)
    have forward := Cell.rank_of_order? ordered
    have backward : b.rank a = order.swap := by
      have turned : b.rank a = (a.rank b).swap := Std.OrientedCmp.eq_swap
      rw [turned, forward]
    cases key.descending <;> simp [ordered, forward, backward]
  · cases key.nulls <;> rfl
  · cases key.nulls <;> rfl
  · have nullLeft : a = .null := by cases a <;> simp_all [Cell.isNull]
    have nullRight : b = .null := by cases b <;> simp_all [Cell.isNull]
    subst nullLeft nullRight
    cases key.descending <;> rfl

end OrderKey

namespace Row

/-- The total preorder of rows under keys. -/
def rank : List (Nat × OrderKey) → Row → Row → Ordering
  | [] => fun _ _ => .eq
  | (position, key) :: rest =>
    compareLex (fun a b => key.rank (a.cell position) (b.cell position)) (rank rest)

instance rank_transCmp (keys : List (Nat × OrderKey)) : Std.TransCmp (rank keys) := by
  induction keys with
  | nil => exact { eq_swap := rfl, isLE_trans := fun _ _ => rfl }
  | cons head rest ih =>
    obtain ⟨position, key⟩ := head
    have column : Std.TransCmp fun a b : Row => key.rank (a.cell position) (b.cell position) :=
      { eq_swap := fun {a b} =>
          @Std.OrientedCmp.eq_swap _ key.rank _ (a.cell position) (b.cell position)
        isLE_trans := fun {a b c} => @Std.TransCmp.isLE_trans _ key.rank _ (a.cell position)
          (b.cell position) (c.cell position) }
    exact inferInstanceAs (Std.TransCmp (compareLex _ _))

/-- On rows whose key cells are comparable, the order of rows is the total preorder. -/
theorem compare_eq_rank {keys : List (Nat × OrderKey)} {a b : Row}
    (comparable : ∀ key ∈ keys, (a.cell key.1).Comparable (b.cell key.1)) :
    compare keys a b = rank keys a b := by
  induction keys with
  | nil => rfl
  | cons head rest ih =>
    obtain ⟨position, key⟩ := head
    have first := key.compare_eq_rank (comparable _ (List.mem_cons_self ..))
    have others := ih fun other member => comparable other (List.mem_cons_of_mem _ member)
    simp only [compare, rank, compareLex, first, others]

end Row

/-- Where a list is cut between the items that satisfy a condition and those that do not, its parts
are determined. -/
private theorem cut_unique {α : Type} {p : α → Bool} {before after before' after' : List α}
    (same : before ++ after = before' ++ after') (holds : ∀ x ∈ before, p x)
    (holds' : ∀ x ∈ before', p x) (fails : ∀ x ∈ after, !p x) (fails' : ∀ x ∈ after', !p x) :
    before = before' ∧ after = after' := by
  have cut {xs ys : List α} (kept : ∀ x ∈ xs, p x) (dropped : ∀ y ∈ ys, !p y) :
      (xs ++ ys).filter p = xs := by
    rw [List.filter_append, List.filter_eq_self.mpr kept, List.filter_eq_nil_iff.mpr,
      List.append_nil]
    intro y member
    simpa using dropped y member
  have fronts : before = before' := by
    rw [← cut holds fails, same, cut holds' fails']
  refine ⟨fronts, ?_⟩
  rw [fronts] at same
  exact List.append_cancel_left same

/-- Dropping items commutes with the stable sort by a total preorder. -/
theorem filter_mergeSort {α : Type} {le : α → α → Bool}
    (trans : ∀ a b c, le a b → le b c → le a c) (total : ∀ a b, le a b || le b a)
    (keep : α → Bool) (items : List α) :
    (items.mergeSort le).filter keep = (items.filter keep).mergeSort le := by
  induction items with
  | nil => simp
  | cons head rest ih =>
    -- The head goes where the items that it may stand before begin, and dropping items keeps that
    -- place.
    obtain ⟨before, after, placed, sorted, first⟩ := List.mergeSort_cons trans total head rest
    have split : (before ++ after).filter keep = (rest.filter keep).mergeSort le := by
      rw [← sorted, ih]
    rw [placed, List.filter_append, List.filter_cons, List.filter_cons]
    cases kept : keep head with
    | false => simpa [← List.filter_append] using split
    | true =>
      obtain ⟨before', after', placed', sorted', first'⟩ :=
        List.mergeSort_cons trans total head (rest.filter keep)
      have later {xs ys items : List α} (result : items.mergeSort le = xs ++ head :: ys) :
          ∀ x ∈ ys, !(!le head x) := by
        intro x member
        have ordered := List.pairwise_mergeSort trans total items
        rw [result] at ordered
        have := List.rel_of_pairwise_cons (List.pairwise_append.mp ordered).2.1 member
        simpa using this
      have whole : before.filter keep ++ after.filter keep = before' ++ after' := by
        rw [← List.filter_append, split, sorted']
      obtain ⟨fronts, backs⟩ := cut_unique whole
        (fun x member => first x (List.mem_filter.mp member).1) first'
        (fun x member => later placed x (List.mem_filter.mp member).1) (later placed')
      simp only [if_true, placed', fronts, backs]

namespace Row

variable {keys : List (Nat × OrderKey)}

theorem rank_swap (keys : List (Nat × OrderKey)) (a b : Row) : rank keys b a = (rank keys a b).swap :=
  Std.OrientedCmp.eq_swap

theorem rank_trans (a b c : Row) (first : (rank keys a b).isLE) (second : (rank keys b c).isLE) :
    (rank keys a c).isLE :=
  Std.TransCmp.isLE_trans first second

theorem rank_total (a b : Row) : (rank keys a b).isLE || (rank keys b a).isLE := by
  rw [rank_swap keys a b]
  cases rank keys a b <;> rfl

end Row

/-- Where the key cells of rows compare, sorting by keys is sorting by a total preorder. -/
theorem sortRows_eq_mergeSort {α : Type} {row : α → Row} {keys : List (Nat × OrderKey)}
    {items : List α} (comparable : ∀ key ∈ keys, ∀ a ∈ items, ∀ b ∈ items,
      ((row a).cell key.1).Comparable ((row b).cell key.1)) :
    sortRows keys row items =
      items.mergeSort fun a b => (Row.rank keys (row a) (row b)).isLE := by
  have agree : ∀ a ∈ items, ∀ b ∈ items,
      (Row.compare keys (row a) (row b) != .gt) = (Row.rank keys (row a) (row b)).isLE := by
    intro a left b right
    rw [Row.compare_eq_rank fun key member => comparable key member a left b right]
    cases Row.rank keys (row a) (row b) <;> rfl
  have mapped := List.map_mergeSort (s := fun a b => (Row.rank keys (row a) (row b)).isLE)
    (f := id) agree
  simpa only [sortRows, List.map_id_fun, id_eq] using mapped

/-- Keeping the rows that satisfy a condition commutes with sorting rows whose key cells compare. -/
theorem filter_sortRows {keys : List (Nat × OrderKey)} {rows : List Row}
    (comparable : ∀ key ∈ keys, ∀ a ∈ rows, ∀ b ∈ rows, (a.cell key.1).Comparable (b.cell key.1))
    (keep : Row → Bool) :
    (sortRows keys id rows).filter keep = sortRows keys id (rows.filter keep) := by
  have byRank {items : List Row} (within : ∀ row ∈ items, row ∈ rows) :
      sortRows keys id items = items.mergeSort fun a b => (Row.rank keys a b).isLE :=
    sortRows_eq_mergeSort fun key member a left b right =>
      comparable key member a (within a left) b (within b right)
  rw [byRank fun _ member => member, byRank fun _ member => (List.mem_filter.mp member).1]
  exact filter_mergeSort Row.rank_trans Row.rank_total keep rows

end TablePipeline

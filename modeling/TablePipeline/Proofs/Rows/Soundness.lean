import TablePipeline.Chain.Run
import TablePipeline.Proofs.Expr.Soundness
import TablePipeline.Proofs.Rows.Grouping

/-! # Values of aggregates and window functions have their types

An aggregate takes a value of its type over rows that the schema admits, unless a sum overflows.
A window function gives every row a value of its type. Both ask for their arguments to be evaluated
exactly, in the rows in which they are evaluated.
-/

namespace TablePipeline

/-- Does no integer overflow while an expression over a schema is evaluated in a row? -/
def Expr.ExactIn (schema : Schema) (row : Row) (expr : Expr String) : Prop :=
  ∀ bound, expr.bind schema = .ok bound → bound.Exact row

variable {schema : Schema} {rows : List Row} {type : ValueType}

/-! ## Aggregates -/

/-- An extreme of values is one of them. -/
theorem extreme_eq_null_or_mem (direction : Ordering) (values : List Cell) :
    extreme direction values = .null ∨ extreme direction values ∈ values := by
  cases values with
  | nil => exact .inl rfl
  | cons first rest =>
    refine .inr ?_
    rw [extreme]
    induction rest generalizing first with
    | nil => exact List.mem_cons_self ..
    | cons next rest ih =>
      rw [List.foldl_cons]
      have inner := ih (if next.order? first = some direction then next else first)
      rcases List.mem_cons.mp inner with same | member
      · rw [same]
        split
        · exact List.mem_cons_of_mem _ (List.mem_cons_self ..)
        · exact List.mem_cons_self ..
      · exact List.mem_cons_of_mem _ (List.mem_cons_of_mem _ member)

/-- A sum of integers is an integer, if there is one to add. -/
theorem admits_intSum? {values : List Cell} {cell : Cell} (sum : intSum? values = some cell) :
    ValueType.Admits ⟨.int, true⟩ cell := by
  unfold intSum? at sum
  split at sum
  · cases sum
    exact ValueType.admits_null.mpr rfl
  · obtain ⟨number, _, rfl⟩ := Option.map_eq_some_iff.mp sum
    exact ValueType.admits_int.mpr (.inl rfl)

/-- A sum of numbers is a double, if there is one to add. -/
theorem admits_floatSum (values : List Cell) : ValueType.Admits ⟨.float, true⟩ (floatSum values) := by
  unfold floatSum
  split
  · exact ValueType.admits_null.mpr rfl
  · exact ValueType.admits_float.mpr rfl

/-- A mean is a double, if there is a number. -/
theorem admits_meanCell (values : List Cell) : ValueType.Admits ⟨.float, true⟩ (meanCell values) := by
  unfold meanCell
  split
  · exact ValueType.admits_null.mpr rfl
  · exact ValueType.admits_float.mpr rfl

/-- A sum has the type of the numbers that it adds. -/
theorem AggregateFunction.admits_sum {type : CellType} (numeric : type.isNumeric = true)
    {argument : Expr Nat} {rows : List Row} {cell : Cell}
    (applied : sum.apply? type (some argument) rows = some cell) :
    ValueType.Admits ⟨type, true⟩ cell := by
  rw [ AggregateFunction.apply?] at applied
  cases type with
  | int => exact admits_intSum? applied
  | float =>
    cases applied
    exact admits_floatSum _
  | bool | text => cases numeric

/-- The value of an aggregate has its type, if it has one. -/
theorem Aggregate.admits_apply? {aggregate : Aggregate} {argument : Option (Expr Nat)} {cell : Cell}
    (admitted : ∀ row ∈ rows, schema.Admits row) (typed : aggregate.infer schema = .ok type)
    (bound : aggregate.argument.mapM (bindExpr schema) = .ok argument)
    (exact : ∀ written ∈ aggregate.argument, ∀ row ∈ rows, written.ExactIn schema row)
    (applied : aggregate.function.apply? type.type argument rows = some cell) :
    type.Admits cell := by
  obtain ⟨function, written⟩ := aggregate
  cases written with
  | none =>
    cases bound
    cases applied
    simp only [infer] at typed
    split at typed
    · cases typed
      exact ValueType.admits_int.mpr (.inl rfl)
    · cases typed
  | some written =>
    simp only [Option.mapM_some, map_eq_pure_bind, bind_eq_ok, pure_eq_ok, bindExpr,
      mapError_eq_ok] at bound
    obtain ⟨argument, resolved, rfl⟩ := bound
    simp only [infer, bind_eq_ok] at typed
    obtain ⟨value, valueTyped, typed⟩ := typed
    have admits {cell : Cell} (member : cell ∈ (rows.map argument.eval).filter (!·.isNull)) :
        value.Admits cell := by
      obtain ⟨row, isRow, rfl⟩ := List.mem_map.mp (List.mem_filter.mp member).1
      exact written.admits_eval (admitted row isRow) valueTyped resolved
        (exact written rfl row isRow argument resolved)
    have admitsExtreme (direction : Ordering) : ValueType.Admits ⟨value.type, true⟩
        (extreme direction ((rows.map argument.eval).filter (!·.isNull))) := by
      rcases extreme_eq_null_or_mem direction _ with isNull | member
      · rw [isNull, ValueType.admits_null]
      · exact (admits member).widen (.inl rfl) fun _ => rfl
    cases function with
    | count | countRows =>
      cases typed
      cases applied
      exact ValueType.admits_int.mpr (.inl rfl)
    | sum =>
      simp only [bind_eq_ok, ValueType.numeric_eq_ok, pure_eq_ok] at typed
      obtain ⟨_, ⟨numeric, rfl⟩, rfl⟩ := typed
      exact AggregateFunction.admits_sum numeric applied
    | mean =>
      simp only [bind_eq_ok, ValueType.numeric_eq_ok, pure_eq_ok] at typed
      obtain ⟨_, ⟨numeric, rfl⟩, rfl⟩ := typed
      rw [ AggregateFunction.apply?, Option.some.injEq] at applied
      rw [← applied]
      exact admits_meanCell _
    | min | max =>
      simp only [throw_bind, guard_eq_ok, pure_eq_ok] at typed
      obtain ⟨_, rfl⟩ := typed
      rw [ AggregateFunction.apply?, Option.some.injEq] at applied
      rw [← applied]
      exact admitsExtreme _

/-! ## Window functions -/

/-- Does no integer overflow while a function is computed over the ordered rows of a part? The
argument is evaluated in those rows that others look at. -/
def BoundWindow.Exact (rows : List Row) : BoundWindow → Prop
  | rowNumber | rank => True
  | lead argument offset => ∀ row ∈ rows.drop offset, argument.Exact row
  | lag argument offset => ∀ row ∈ rows.take (rows.length - offset), argument.Exact row

/-- The values of a window function have its type. -/
theorem BoundWindow.admits_values {function : WindowFunction} {bound : BoundWindow}
    {keys : List (Nat × OrderKey)} (admitted : ∀ row ∈ rows, schema.Admits row)
    (typed : function.infer schema = .ok type) (resolved : function.bind schema = .ok bound)
    (exact : bound.Exact rows) {value : Cell} (member : value ∈ bound.values keys rows) :
    type.Admits value := by
  cases function with
  | rowNumber | rank =>
    cases typed
    cases resolved
    obtain ⟨number, _, rfl⟩ := List.mem_map.mp member
    exact ValueType.admits_int.mpr (.inl rfl)
  | lead argument offset =>
    simp only [WindowFunction.infer, bind_eq_ok, pure_eq_ok] at typed
    obtain ⟨valueType, typed, rfl⟩ := typed
    simp only [WindowFunction.bind, bind_eq_ok, pure_eq_ok] at resolved
    obtain ⟨argument', resolved, rfl⟩ := resolved
    obtain ⟨place, _, rfl⟩ := List.mem_map.mp member
    cases found : rows[place + offset.toNat]? with
    | none => rw [Option.map_none, Option.getD_none, ValueType.admits_null]
    | some row =>
      have later : row ∈ rows.drop offset.toNat :=
        List.mem_of_getElem? (i := place) (by rw [List.getElem?_drop, Nat.add_comm, found])
      exact (argument.admits_eval (admitted row (List.mem_of_getElem? found)) typed resolved
        (exact row later)).widen (.inl rfl) fun _ => rfl
  | lag argument offset =>
    simp only [WindowFunction.infer, bind_eq_ok, pure_eq_ok] at typed
    obtain ⟨valueType, typed, rfl⟩ := typed
    simp only [WindowFunction.bind, bind_eq_ok, pure_eq_ok] at resolved
    obtain ⟨argument', resolved, rfl⟩ := resolved
    obtain ⟨place, inside, rfl⟩ := List.mem_map.mp member
    split
    · rename_i back
      cases found : rows[place - offset.toNat]? with
      | none => rw [Option.map_none, Option.getD_none, ValueType.admits_null]
      | some row =>
        have bound := List.mem_range.mp inside
        have earlier : row ∈ rows.take (rows.length - offset.toNat) :=
          List.mem_of_getElem? (i := place - offset.toNat)
            (by rw [List.getElem?_take_of_lt (by omega), found])
        exact (argument.admits_eval (admitted row (List.mem_of_getElem? found)) typed resolved
          (exact row earlier)).widen (.inl rfl) fun _ => rfl
    · rw [ValueType.admits_null]

/-- Every row gets a value of the type of a window function. -/
theorem BoundWindow.admits_column {function : WindowFunction} {bound : BoundWindow}
    {partition : List Nat} {keys : List (Nat × OrderKey)}
    (admitted : ∀ row ∈ rows, schema.Admits row) (typed : function.infer schema = .ok type)
    (resolved : function.bind schema = .ok bound)
    (exact : ∀ part ∈ parts partition keys rows, bound.Exact (part.map (·.1))) {value : Cell}
    (member : value ∈ bound.column partition keys rows) : type.Admits value := by
  obtain ⟨part, isPart, member⟩ := exists_part_of_mem_column member
  refine admits_values (fun row isRow => admitted row ?_) typed resolved (exact part isPart) member
  exact mem_of_mem_parts isPart isRow

end TablePipeline

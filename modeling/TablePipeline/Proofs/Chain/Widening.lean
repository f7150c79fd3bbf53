import TablePipeline.Proofs.Chain.NestedLoops

/-! # Integers under the type of doubles

Integers and doubles together have the type of doubles. Operators and functions on numbers of both kinds
compute a double, but `coalesce` gives the argument that it takes as it is: among integers and doubles it
may take an integer, and then an integer stands under the type of doubles. It goes on being one through
exact operators on integers alone. There is no other way for a value to have another type than its
expression, apart from integers that overflow.
-/

namespace TablePipeline

namespace Expr

mutual

/-- The parts of an expression, itself among them. -/
def parts : Expr String → List (Expr String)
  | column name => [column name]
  | literal value => [literal value]
  | cast operand type => cast operand type :: operand.parts
  | binary op left right => binary op left right :: (left.parts ++ right.parts)
  | unary op operand => unary op operand :: operand.parts
  | call function arguments => call function arguments :: partsAll arguments

/-- The parts of arguments. -/
def partsAll : List (Expr String) → List (Expr String)
  | [] => []
  | argument :: rest => argument.parts ++ partsAll rest

end

/-- Does a `coalesce` of both integers and doubles take an integer in a row? -/
structure TakesInteger (schema : Schema) (clause : Clause) (row : Row) (arguments : List (Expr String)) :
    Prop where
  mixed : ∃ types, inferAll schema clause arguments = .ok types ∧
    (∃ value ∈ types, value.type = .int) ∧ ∃ value ∈ types, value.type = .float
  taken : ∃ bound number, (call .coalesce arguments).bind schema = .ok bound ∧
    bound.eval row = .int number

end Expr

/-! ## Operators that give integers -/

/-- A cast to doubles gives no integer. -/
theorem Cell.castTo_float_ne_int (cell : Cell) (number : Int64) : cell.castTo .float ≠ .int number := by
  cases cell <;> simp [castTo]

/-- An operator gives an integer on integers only, unless it divides. -/
theorem ArithmeticOp.eq_int_of_apply {op : ArithmeticOp} {a b : Cell} {number : Int64}
    (applied : (BinaryOp.arithmetic op).apply a b = .int number) :
    op ≠ .divide ∧ (∃ x, a = .int x) ∧ ∃ y, b = .int y := by
  have notDivide : op ≠ .divide := by
    rintro rfl
    rcases divide_apply a b with isNull | ⟨value, isFloat⟩
    · rw [isNull] at applied
      cases applied
    · rw [isFloat] at applied
      cases applied
  have notFloat (x y : Float) : op.onFloats x y ≠ .int number := by
    obtain ⟨value, isFloat⟩ := onFloats_eq_float notDivide x y
    rw [isFloat]
    exact fun same => nomatch same
  refine ⟨notDivide, ?_⟩
  cases a <;> cases b <;> first
    | exact ⟨⟨_, rfl⟩, _, rfl⟩
    | exact absurd applied (notFloat _ _)
    | cases applied

/-- An integer under the type of doubles comes from such an operand. -/
theorem BinaryOp.exists_operand_of_int {op : BinaryOp} {context : String}
    {left right result : ValueType} {a b : Cell} {number : Int64}
    (typed : op.infer context left right = .ok result) (isFloat : result.type = .float)
    (applied : op.apply a b = .int number) :
    (left.type = .float ∧ ∃ x, a = .int x) ∨ right.type = .float ∧ ∃ y, b = .int y := by
  cases op with
  | arithmetic op =>
    obtain ⟨notDivide, isLeft, isRight⟩ := ArithmeticOp.eq_int_of_apply applied
    obtain ⟨leftNumeric, rightNumeric, rfl⟩ := infer_arithmetic.mp typed
    rw [if_neg notDivide] at isFloat
    have number {type : CellType} (numeric : type.isNumeric = true) : type = .int ∨ type = .float := by
      cases type <;> simp_all [CellType.isNumeric]
    rcases number leftNumeric with leftInt | leftFloat
    · rcases number rightNumeric with rightInt | rightFloat
      · simp [leftInt, rightInt] at isFloat
      · exact .inr ⟨rightFloat, isRight⟩
    · exact .inl ⟨leftFloat, isLeft⟩
  | comparison op =>
    obtain ⟨_, rfl⟩ := infer_comparison.mp typed
    cases isFloat
  | logical op =>
    obtain ⟨_, _, rfl⟩ := infer_logical.mp typed
    cases isFloat

@[inherit_doc BinaryOp.exists_operand_of_int]
theorem UnaryOp.operand_of_int {op : UnaryOp} {context : String} {operand result : ValueType}
    {a : Cell} {number : Int64} (typed : op.infer context operand = .ok result)
    (isFloat : result.type = .float) (applied : op.apply a = .int number) :
    operand.type = .float ∧ ∃ x, a = .int x := by
  cases op with
  | negate =>
    obtain ⟨_, rfl⟩ := ValueType.numeric_eq_ok.mp typed
    cases a <;> first | exact ⟨isFloat, _, rfl⟩ | cases applied
  | not =>
    obtain ⟨isBool, rfl⟩ := ValueType.expect_eq_ok.mp typed
    rw [isBool] at isFloat
    cases isFloat
  | isNull | isNotNull =>
    cases typed
    cases isFloat

namespace ScalarFunction

variable {context : String} {types : List ValueType} {result : ValueType} {arguments : List Cell}
  {number : Int64}

/-- Only the absolute value is an integer, and only that of an integer. -/
theorem eq_abs_of_onValues {function : ScalarFunction}
    (applied : function.onValues arguments = .int number) :
    function = .abs ∧ ∃ x, arguments = [.int x] := by
  unfold onValues at applied
  split at applied
  case h_2 => exact ⟨rfl, _, rfl⟩
  -- every other value is a double, a text or null
  all_goals repeat' first | contradiction | split at applied

/-- A function other than `coalesce` that gives an integer under the type of doubles has one argument,
which is an integer under the type of doubles. -/
theorem argument_of_int {function : ScalarFunction} (notCoalesce : function ≠ .coalesce)
    (typed : function.infer context types = .ok result) (isFloat : result.type = .float)
    (applied : function.apply arguments = .int number) :
    ∃ value x, types = [value] ∧ value.type = .float ∧ arguments = [.int x] := by
  have onValues : (if arguments.any Cell.isNull then .null else function.onValues arguments) =
      Cell.int number := by
    cases function <;> first | exact applied | exact absurd rfl notCoalesce
  split at onValues
  · cases onValues
  · obtain ⟨rfl, x, rfl⟩ := eq_abs_of_onValues onValues
    match types with
    | [value] =>
      obtain ⟨_, rfl⟩ := ValueType.numeric_eq_ok.mp typed
      exact ⟨value, x, rfl, isFloat, rfl⟩
    | [] | _ :: _ :: _ => cases typed

/-- The common type of integers is that of integers. -/
theorem coalesceType_eq_int {rest : List ValueType} {common : CellType}
    (found : coalesceType context .int rest = .ok common) (ints : ∀ value ∈ rest, value.type = .int) :
    common = .int := by
  induction rest with
  | nil =>
    cases found
    rfl
  | cons next rest ih =>
    obtain ⟨first, others⟩ := List.forall_mem_cons.mp ints
    rw [coalesceType, if_pos first] at found
    exact ih found others

/-- A `coalesce` of the type of doubles has arguments that are numbers, and doubles among them. -/
theorem numbers_of_coalesce (typed : coalesce.infer context types = .ok result)
    (isFloat : result.type = .float) :
    (∀ value ∈ types, value.type = .int ∨ value.type = .float) ∧
      ∃ value ∈ types, value.type = .float := by
  cases types with
  | nil => cases typed
  | cons first rest =>
    simp only [infer, bind_eq_ok, pure_eq_ok] at typed
    obtain ⟨common, found, rfl⟩ := typed
    have isCommon : common = .float := isFloat
    subst isCommon
    have holds := coalesceType_holds found
    have numbers : ∀ value ∈ first :: rest, value.type = .int ∨ value.type = .float := by
      intro value member
      have held : CellType.Holds .float value.type := by
        rcases List.mem_cons.mp member with rfl | member
        · exact holds.1
        · exact holds.2 value member
      rcases held with isFloat | ⟨isInt, _⟩
      · exact .inr isFloat
      · exact .inl isInt
    refine ⟨numbers, ?_⟩
    by_contra noFloat
    have ints : ∀ value ∈ first :: rest, value.type = .int := fun value member =>
      (numbers value member).resolve_right fun isFloat => noFloat ⟨value, member, isFloat⟩
    obtain ⟨firstInt, othersInt⟩ := List.forall_mem_cons.mp ints
    rw [firstInt] at found
    cases coalesceType_eq_int found othersInt

end ScalarFunction

/-! ## Where an integer comes from -/

namespace Expr

variable {schema : Schema} {clause : Clause} {row : Row}

mutual

/-- An integer under the type of doubles comes from a `coalesce` that takes it, if the cells of the row
have the types of their columns. -/
theorem exists_takesInteger
    (columns : ∀ {position : Nat} {column : Column}, schema.columns[position]? = some column →
      ∀ {type : CellType}, (row.cell position).type? = some type → type = column.type) :
    ∀ (expr : Expr String) {type : ValueType} {bound : Expr Nat} {number : Int64},
      expr.infer schema clause = .ok type → expr.bind schema = .ok bound → type.type = .float →
      bound.eval row = .int number →
      ∃ arguments, call .coalesce arguments ∈ expr.parts ∧ TakesInteger schema clause row arguments
  | .column reference, type, bound, number, typed, resolved, isFloat, value => by
    obtain ⟨position, found, known, rfl, rfl⟩ := column_of_typed typed resolved
    have hasType : (row.cell position).type? = some .int := congrArg Cell.type? value
    cases (columns known hasType).trans isFloat
  | .literal cell, type, bound, number, typed, resolved, isFloat, value => by
    rw [Expr.bind, pure_eq_ok] at resolved
    subst resolved
    obtain ⟨found, hasType, rfl⟩ := infer_literal typed
    have isInt : cell = .int number := value
    rw [isInt] at hasType
    cases hasType
    cases isFloat
  | .cast operand target, type, bound, number, typed, resolved, isFloat, value => by
    simp only [Expr.bind, bind_eq_ok, pure_eq_ok] at resolved
    obtain ⟨source, resolved, rfl⟩ := resolved
    have isTarget : target = .float := by
      rcases infer_cast typed with ⟨_, rfl⟩ | ⟨_, _, _, rfl⟩ <;> exact isFloat
    subst isTarget
    exact absurd value (Cell.castTo_float_ne_int _ _)
  | .binary op left right, type, bound, number, typed, resolved, isFloat, value => by
    simp only [infer, bind_eq_ok] at typed
    obtain ⟨leftType, leftTyped, rightType, rightTyped, typed⟩ := typed
    simp only [Expr.bind, bind_eq_ok, pure_eq_ok] at resolved
    obtain ⟨boundLeft, leftResolved, boundRight, rightResolved, rfl⟩ := resolved
    rcases BinaryOp.exists_operand_of_int typed isFloat value with
      ⟨leftFloat, x, isInt⟩ | ⟨rightFloat, y, isInt⟩
    · obtain ⟨arguments, isPart, takes⟩ :=
        exists_takesInteger columns left leftTyped leftResolved leftFloat isInt
      exact ⟨arguments, List.mem_cons_of_mem _ (List.mem_append_left _ isPart), takes⟩
    · obtain ⟨arguments, isPart, takes⟩ :=
        exists_takesInteger columns right rightTyped rightResolved rightFloat isInt
      exact ⟨arguments, List.mem_cons_of_mem _ (List.mem_append_right _ isPart), takes⟩
  | .unary op operand, type, bound, number, typed, resolved, isFloat, value => by
    simp only [infer, bind_eq_ok] at typed
    obtain ⟨operandType, operandTyped, typed⟩ := typed
    simp only [Expr.bind, bind_eq_ok, pure_eq_ok] at resolved
    obtain ⟨source, resolved, rfl⟩ := resolved
    obtain ⟨operandFloat, x, isInt⟩ := UnaryOp.operand_of_int typed isFloat value
    obtain ⟨arguments, isPart, takes⟩ :=
      exists_takesInteger columns operand operandTyped resolved operandFloat isInt
    exact ⟨arguments, List.mem_cons_of_mem _ isPart, takes⟩
  | .call function arguments, type, bound, number, typed, resolved, isFloat, value => by
    obtain ⟨types, argumentsTyped, functionTyped⟩ := infer_call typed
    have whole := resolved
    simp only [Expr.bind, bind_eq_ok, pure_eq_ok] at resolved
    obtain ⟨each, resolved, rfl⟩ := resolved
    by_cases isCoalesce : function = .coalesce
    · subst isCoalesce
      obtain ⟨numbers, someFloat⟩ := ScalarFunction.numbers_of_coalesce functionTyped isFloat
      have first : (evalAll row each).find? (!·.isNull) = some (.int number) := by
        have value : ((evalAll row each).find? (!·.isNull)).getD .null = .int number := value
        cases found : (evalAll row each).find? (!·.isNull) with
        | none =>
          rw [found] at value
          cases value
        | some cell =>
          rw [found] at value
          exact congrArg some value
      rcases exists_takesInteger_of_first columns arguments argumentsTyped resolved first numbers with
        someInt | ⟨inner, isPart, takes⟩
      · exact ⟨arguments, List.mem_cons_self .., ⟨types, argumentsTyped, someInt, someFloat⟩,
          _, number, whole, value⟩
      · exact ⟨inner, List.mem_cons_of_mem _ isPart, takes⟩
    · obtain ⟨valueType, x, rfl, valueFloat, isInt⟩ :=
        ScalarFunction.argument_of_int isCoalesce functionTyped isFloat value
      have first : (evalAll row each).find? (!·.isNull) = some (.int x) := by rw [isInt]; rfl
      rcases exists_takesInteger_of_first columns arguments argumentsTyped resolved first
        (fun other member => .inr (List.mem_singleton.mp member ▸ valueFloat)) with
        ⟨other, member, otherInt⟩ | ⟨inner, isPart, takes⟩
      · rw [List.mem_singleton.mp member, valueFloat] at otherInt
        cases otherInt
      · exact ⟨inner, List.mem_cons_of_mem _ isPart, takes⟩

/-- An integer that is the first of some arguments that is not null is one of the type of integers, or
comes from a `coalesce` in the arguments. -/
theorem exists_takesInteger_of_first
    (columns : ∀ {position : Nat} {column : Column}, schema.columns[position]? = some column →
      ∀ {type : CellType}, (row.cell position).type? = some type → type = column.type) :
    ∀ (arguments : List (Expr String)) {types : List ValueType} {bound : List (Expr Nat)}
      {number : Int64}, inferAll schema clause arguments = .ok types →
      bindAll schema arguments = .ok bound →
      (evalAll row bound).find? (!·.isNull) = some (.int number) →
      (∀ value ∈ types, value.type = .int ∨ value.type = .float) →
      (∃ value ∈ types, value.type = .int) ∨ ∃ inner, call .coalesce inner ∈ partsAll arguments ∧
        TakesInteger schema clause row inner
  | [], types, bound, number, typed, resolved, first, numbers => by
    cases resolved
    cases first
  | argument :: rest, types, bound, number, typed, resolved, first, numbers => by
    simp only [inferAll, bind_eq_ok, pure_eq_ok] at typed
    obtain ⟨head, headTyped, others, othersTyped, rfl⟩ := typed
    simp only [bindAll, bind_eq_ok, pure_eq_ok] at resolved
    obtain ⟨boundHead, headResolved, boundOthers, othersResolved, rfl⟩ := resolved
    obtain ⟨headNumber, otherNumbers⟩ := List.forall_mem_cons.mp numbers
    rw [evalAll, List.find?_cons] at first
    cases isNull : (boundHead.eval row).isNull with
    | false =>
      rw [isNull] at first
      rcases headNumber with isInt | isFloat
      · exact .inl ⟨head, List.mem_cons_self .., isInt⟩
      · obtain ⟨inner, isPart, takes⟩ := exists_takesInteger columns argument headTyped headResolved
          isFloat (Option.some.inj first)
        exact .inr ⟨inner, List.mem_append_left _ isPart, takes⟩
    | true =>
      rw [isNull] at first
      rcases exists_takesInteger_of_first columns rest othersTyped othersResolved first otherNumbers
        with ⟨value, member, isInt⟩ | ⟨inner, isPart, takes⟩
      · exact .inl ⟨value, List.mem_cons_of_mem _ member, isInt⟩
      · exact .inr ⟨inner, List.mem_append_right _ isPart, takes⟩

end

/-- In a row of the types of its columns, an expression that has a type is bound. If no integer
overflows, its value has exactly that type, or it is null and may be; unless the type is that of doubles
and a `coalesce` in the expression takes an integer from among integers and doubles. -/
theorem eval_hasType (expr : Expr String) {type : ValueType}
    (typed : expr.infer schema clause = .ok type) (stores : schema.Stores row) :
    ∃ bound, expr.bind schema = .ok bound ∧ (bound.Exact row →
      (bound.eval row = .null ∧ type.nullable = true) ∨
        (bound.eval row).type? = some type.type ∨
          type.type = .float ∧ (∃ number, bound.eval row = .int number) ∧
            ∃ arguments, call .coalesce arguments ∈ expr.parts ∧
              TakesInteger schema clause row arguments) := by
  obtain ⟨bound, resolved⟩ := bind_of_resolves expr (resolves_of_infer expr typed)
  refine ⟨bound, resolved, fun exact => ?_⟩
  have admitted := expr.admits_eval stores.admits typed resolved exact
  unfold ValueType.Admits at admitted
  cases hasType : (bound.eval row).type? with
  | none =>
    rw [hasType] at admitted
    refine .inl ⟨?_, admitted⟩
    cases value : bound.eval row <;> rw [value] at hasType <;> first | rfl | cases hasType
  | some found =>
    rw [hasType] at admitted
    rcases admitted with rfl | ⟨rfl, isFloat⟩
    · exact .inr (.inl rfl)
    · obtain ⟨number, value⟩ : ∃ number, bound.eval row = .int number := by
        cases value : bound.eval row <;> rw [value] at hasType <;> first | exact ⟨_, rfl⟩ | cases hasType
      exact .inr (.inr ⟨isFloat, ⟨number, value⟩,
        exists_takesInteger stores.type_eq expr typed resolved isFloat value⟩)

/-- Goods that are counted or weighed. -/
def goods : Schema :=
  ⟨[⟨"count", .int, true⟩, ⟨"weight", .float, true⟩], [], []⟩

/-- The weight, taken as nothing if it is not known, and one more than the count. -/
def load : Expr String :=
  .binary (.arithmetic .multiply) (.call .coalesce [.column "weight", .literal (.float 0.0)])
    (.binary (.arithmetic .add) (.column "count") (.literal (.int 1)))

/-- A product of a double and an integer is a double. -/
theorem eval_load :
    load.infer goods .mutate = .ok ⟨.float, true⟩ ∧ goods.Stores [.int 2, .float 1.5] ∧
      ∃ bound, load.bind goods = .ok bound ∧ bound.Exact [.int 2, .float 1.5] ∧
        ((bound.eval [.int 2, .float 1.5] = .null ∧ true = true) ∨
          (bound.eval [.int 2, .float 1.5]).type? = some .float ∨
            CellType.float = .float ∧ (∃ number, bound.eval [.int 2, .float 1.5] = .int number) ∧
              ∃ arguments, call .coalesce arguments ∈ load.parts ∧
                TakesInteger goods .mutate [.int 2, .float 1.5] arguments) := by
  have typed : load.infer goods .mutate = .ok ⟨.float, true⟩ := rfl
  have stores : goods.Stores [.int 2, .float 1.5] := .cons rfl (.cons rfl .nil)
  obtain ⟨bound, resolved, value⟩ := eval_hasType load typed stores
  have exact : bound.Exact [.int 2, .float 1.5] := by
    cases resolved
    have fits : Number.Fits 3 := rfl
    exact ⟨⟨trivial, fun _ => ⟨trivial, fun _ => trivial⟩⟩, ⟨trivial, trivial, fits⟩, trivial⟩
  exact ⟨typed, stores, bound, resolved, exact, value exact⟩

/-- The count of goods, or their weight if they are not counted. -/
def amount : Expr String :=
  .call .coalesce [.column "count", .column "weight"]

/-- The count is taken as it is, although an amount has the type of doubles. -/
theorem eval_amount :
    amount.infer goods .mutate = .ok ⟨.float, true⟩ ∧ goods.Stores [.int 1, .null] ∧
      ∃ bound, amount.bind goods = .ok bound ∧ bound.Exact [.int 1, .null] ∧
        bound.eval [.int 1, .null] ≠ .null ∧
        (bound.eval [.int 1, .null]).type? ≠ some .float := by
  refine ⟨rfl, .cons rfl (.cons rfl .nil), _, rfl, ?_, ?_, ?_⟩
  · exact ⟨trivial, fun _ => ⟨trivial, fun _ => trivial⟩⟩
  · exact fun isNull => nomatch isNull
  · exact fun isFloat => nomatch isFloat

end Expr

end TablePipeline

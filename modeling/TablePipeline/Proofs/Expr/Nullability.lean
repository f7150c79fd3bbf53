import TablePipeline.Proofs.Expr.Soundness

/-! # Expressions that are never null

An expression whose type is not nullable takes no null in a row that the schema admits, also where an
integer overflows and the evaluation goes on in doubles. The values are followed under wider types, in
which a double may stand for any integer; every operator has a type there too, so it gives null only
where its own type says so. A cast to text is what can fail: it spells integers, and leaves a double
that stands for one as it is.
-/

namespace TablePipeline

/-! ## Types whose integers may have overflowed -/

/-- The type of the values that an evaluation may go on with where it overflows. -/
def CellType.widened : CellType → CellType
  | int => float
  | type => type

/-- The type of values of which the integers may have overflowed into doubles. -/
def ValueType.widened (value : ValueType) : ValueType :=
  ⟨value.type.widened, value.nullable⟩

namespace CellType

@[simp]
theorem widened_ne_int (type : CellType) : type.widened ≠ int := by
  cases type <;> simp [widened]

@[simp]
theorem isNumeric_widened (type : CellType) : type.widened.isNumeric = type.isNumeric := by
  cases type <;> rfl

theorem widened_holds (type : CellType) : type.widened.Holds type := by
  cases type <;> simp [widened, Holds]

/-- The common type of numbers is as wide as either of them. -/
theorem widened_eq_of_widest? {left right wider : CellType}
    (isWider : left.widest? right = some wider) :
    left.widened = wider.widened ∧ right.widened = wider.widened := by
  cases left <;> cases right <;> cases isWider <;> exact ⟨rfl, rfl⟩

end CellType

namespace ValueType

variable {value result : ValueType} {context : String}

@[simp]
theorem type_widened (value : ValueType) : value.widened.type = value.type.widened := rfl

@[simp]
theorem nullable_widened (value : ValueType) : value.widened.nullable = value.nullable := rfl

/-- What a type admits, its wider type admits. -/
theorem Admits.widened {cell : Cell} (admitted : value.Admits cell) : value.widened.Admits cell :=
  admitted.widen value.type.widened_holds fun isNull => by rwa [isNull, admits_null] at admitted

theorem numeric_widened (typed : value.numeric context = .ok result) :
    value.widened.numeric context = .ok result.widened := by
  obtain ⟨numeric, rfl⟩ := numeric_eq_ok.mp typed
  exact numeric_eq_ok.mpr ⟨by simpa using numeric, rfl⟩

/-- A type that is neither that of integers nor that of doubles is as wide as it gets. -/
theorem expect_widened {type : CellType} (notInt : type.widened = type)
    (typed : value.expect context type = .ok result) :
    value.widened.expect context type = .ok result.widened := by
  obtain ⟨isType, rfl⟩ := expect_eq_ok.mp typed
  exact expect_eq_ok.mpr ⟨by rw [type_widened, isType, notInt], rfl⟩

end ValueType

/-! ## Operators and functions on wider types -/

theorem BinaryOp.infer_widened {op : BinaryOp} {context : String} {left right result : ValueType}
    (typed : op.infer context left right = .ok result) :
    op.infer context left.widened right.widened = .ok result.widened := by
  cases op with
  | arithmetic op =>
    obtain ⟨leftNumeric, rightNumeric, rfl⟩ := infer_arithmetic.mp typed
    refine infer_arithmetic.mpr ⟨by simpa using leftNumeric, by simpa using rightNumeric, ?_⟩
    have notInts : ¬ (left.widened.type = .int ∧ right.widened.type = .int) :=
      fun ints => left.type.widened_ne_int ints.1
    rw [if_neg notInts]
    split
    · rfl
    · split <;> rfl
  | comparison op =>
    obtain ⟨comparable, rfl⟩ := infer_comparison.mp typed
    refine infer_comparison.mpr ⟨.inl ?_, rfl⟩
    rcases comparable with same | common
    · exact congrArg CellType.widened same
    · obtain ⟨wider, isWider⟩ := Option.isSome_iff_exists.mp common
      obtain ⟨fromLeft, fromRight⟩ := CellType.widened_eq_of_widest? isWider
      exact fromLeft.trans fromRight.symm
  | logical op =>
    obtain ⟨leftBool, rightBool, rfl⟩ := infer_logical.mp typed
    exact infer_logical.mpr
      ⟨congrArg CellType.widened leftBool, congrArg CellType.widened rightBool, rfl⟩

theorem UnaryOp.infer_widened {op : UnaryOp} {context : String} {operand result : ValueType}
    (typed : op.infer context operand = .ok result) :
    op.infer context operand.widened = .ok result.widened := by
  cases op with
  | negate => exact ValueType.numeric_widened typed
  | not => exact ValueType.expect_widened rfl typed
  | isNull | isNotNull =>
    cases typed
    rfl

theorem coalesceType_widened {context : String} {type result : CellType} {rest : List ValueType}
    (common : coalesceType context type rest = .ok result) :
    coalesceType context type.widened (rest.map ValueType.widened) = .ok result.widened := by
  induction rest generalizing type with
  | nil =>
    cases common
    rfl
  | cons next rest ih =>
    rw [List.map_cons, coalesceType, ValueType.type_widened]
    rcases coalesceType_cons common with ⟨same, common⟩ | ⟨wider, _, isWider, common⟩
    · rw [same, if_pos rfl]
      exact ih common
    · obtain ⟨fromType, fromNext⟩ := CellType.widened_eq_of_widest? isWider
      rw [fromType, fromNext, if_pos rfl]
      exact ih common

theorem ScalarFunction.infer_widened {function : ScalarFunction} {context : String}
    {types : List ValueType} {result : ValueType}
    (typed : function.infer context types = .ok result) :
    function.infer context (types.map ValueType.widened) = .ok result.widened := by
  cases function with
  | coalesce =>
    cases types with
    | nil => cases typed
    | cons first rest =>
      simp only [infer, bind_eq_ok, pure_eq_ok] at typed
      obtain ⟨type, common, rfl⟩ := typed
      simp only [List.map_cons, infer, ValueType.type_widened, coalesceType_widened common, ok_bind]
      simp [ValueType.widened, List.all_map, Function.comp_def]
  | pow =>
    obtain _ | ⟨base, _ | ⟨exponent, _ | ⟨_, _⟩⟩⟩ := types
    · cases typed
    · cases typed
    · simp only [infer, bind_eq_ok] at typed
      obtain ⟨_, baseTyped, typed⟩ := typed
      simp only [List.map_cons, List.map_nil, infer, ValueType.numeric_widened baseTyped, ok_bind]
      split at typed
      · rename_i nullable
        cases typed
        exact if_pos nullable
      · rename_i notNullable
        obtain ⟨_, exponentTyped, typed⟩ := bind_eq_ok.mp typed
        cases typed
        rw [ValueType.numeric_widened exponentTyped]
        exact if_neg notNullable
    · cases typed
  | round digits | abs | sqrt | strip =>
    obtain _ | ⟨value, _ | ⟨_, _⟩⟩ := types
    · cases typed
    · simp only [List.map_cons, List.map_nil, infer] at typed ⊢
      first
        | exact ValueType.numeric_widened typed
        | exact ValueType.expect_widened rfl typed
        | obtain ⟨_, valueTyped, typed⟩ := bind_eq_ok.mp typed
          cases typed
          rw [ValueType.numeric_widened valueTyped]
          rfl
    · cases typed

/-! ## Values of wider types -/

/-- What is asked of an evaluation: no cast to text gets a double. -/
def Expr.spelling : Requirement where
  ofCast target cell := target = .text → cell.type? ≠ some .float

/-- A cast gives values of the type that it casts to, or doubles for its integers, unless it has to
spell a double. -/
theorem Cell.widened_admits_castTo {source : ValueType} {target : CellType} {a : Cell}
    (casts : source.type.castsTo target = true) (admitted : source.widened.Admits a)
    (spells : target = .text → a.type? ≠ some .float) :
    (ValueType.widened ⟨target, source.nullable⟩).Admits (a.castTo target) := by
  obtain ⟨sourceType, nullable⟩ := source
  cases a <;> cases sourceType <;> cases target <;>
    simp_all [castTo, type?, CellType.castsTo, CellType.widened, ValueType.widened]

namespace Expr

/-- Evaluations in which no cast has to spell a double carry on that the wider type admits a value. -/
theorem spelling_carries : spelling.Carries fun value cell => value.widened.Admits cell where
  null := ValueType.admits_null
  literal {cell type} hasType := by
    have admitted : ValueType.Admits ⟨type, false⟩ cell := by
      cases cell <;> cases hasType <;> simp
    exact admitted.widened
  cast casts admitted spells := Cell.widened_admits_castTo casts admitted spells
  binary typed left right _ :=
    BinaryOp.admits_apply (BinaryOp.infer_widened typed) left right
      fun isInt => absurd isInt (CellType.widened_ne_int _)
  unary typed operand _ :=
    UnaryOp.admits_apply (UnaryOp.infer_widened typed) operand
      fun isInt => absurd isInt (CellType.widened_ne_int _)
  call notCoalesce typed admitted _ :=
    ScalarFunction.admits_apply notCoalesce (ScalarFunction.infer_widened typed)
      (List.forall₂_map_left_iff.mpr admitted) fun isInt => absurd isInt (CellType.widened_ne_int _)
  coalesce {context types result arguments} typed found := by
    refine ScalarFunction.admits_coalesce (ScalarFunction.infer_widened typed) ?_
    cases first : arguments.find? (!·.isNull) with
    | some cell =>
      rw [first] at found
      obtain ⟨value, member, admitted⟩ := found
      exact ⟨_, List.mem_map_of_mem member, admitted⟩
    | none =>
      rw [first] at found
      refine Eq.trans ?_ found
      rw [List.all_map]
      rfl

variable {schema : Schema} {clause : Clause} {row : Row}

/-- In a row that the schema admits, an expression whose type is not nullable is bound, and its value
is not null, whatever overflows; unless a cast to text gets a double on the way. -/
theorem eval_ne_null (expr : Expr String) {type : ValueType}
    (typed : expr.infer schema clause = .ok type) (notNullable : type.nullable = false)
    (admitted : schema.Admits row) :
    ∃ bound, expr.bind schema = .ok bound ∧
      (bound.Meets spelling row → bound.eval row ≠ .null) := by
  obtain ⟨bound, resolved⟩ := bind_of_resolves expr (resolves_of_infer expr typed)
  refine ⟨bound, resolved, ?_⟩
  intro meets isNull
  have value := spelling_carries.eval (fun here => (admitted.cell here).widened) expr typed resolved
    meets
  rw [isNull, ValueType.admits_null, ValueType.nullable_widened, notNullable] at value
  cases value

/-- A number that is there and a share that may be missing. -/
def numbered : Schema :=
  ⟨[⟨"number", .int, false⟩, ⟨"share", .float, true⟩], [], []⟩

/-- Does the next number exceed the share, and is the number spelled with something? -/
def spelledAndAbove : Expr String :=
  .binary (.logical .and)
    (.binary (.comparison .greaterEqual)
      (.call .abs [.binary (.arithmetic .add) (.column "number") (.literal (.int 1))])
      (.call .coalesce [.column "share", .literal (.int 0)]))
    (.binary (.comparison .unequal) (.call .strip [.cast (.column "number") .text])
      (.literal (.text "")))

/-- The next number overflows, but what is spelled is an integer. -/
theorem eval_spelledAndAbove :
    spelledAndAbove.infer numbered .filter = .ok ⟨.bool, false⟩ ∧
      numbered.Admits [.int Int64.maxValue, .null] ∧
      ∃ bound, spelledAndAbove.bind numbered = .ok bound ∧
        bound.Meets spelling [.int Int64.maxValue, .null] ∧
        bound.eval [.int Int64.maxValue, .null] ≠ .null := by
  have typed : spelledAndAbove.infer numbered .filter = .ok ⟨.bool, false⟩ := rfl
  have admitted : numbered.Admits [.int Int64.maxValue, .null] :=
    .cons (.inl rfl) (.cons rfl .nil)
  obtain ⟨bound, resolved, value⟩ := eval_ne_null spelledAndAbove typed rfl admitted
  have meets : bound.Meets spelling [.int Int64.maxValue, .null] := by
    cases resolved
    simp [Meets, MeetsAll, MeetsFirst, spelling, eval, Row.cell, Cell.type?]
  exact ⟨typed, admitted, bound, resolved, meets, value meets⟩

/-- The number after a number, spelled without spaces at its ends. -/
def spelledSuccessor : Expr String :=
  .call .strip [.cast (.binary (.arithmetic .add) (.column "number") (.literal (.int 1))) .text]

/-- The number after the last one of 64 bits is a double, and the cast does not spell it: there is no
text to strip, although the type is not nullable. -/
theorem eval_spelledSuccessor :
    spelledSuccessor.infer numbered .filter = .ok ⟨.text, false⟩ ∧
      numbered.Admits [.int Int64.maxValue, .null] ∧
      ∃ bound, spelledSuccessor.bind numbered = .ok bound ∧
        bound.eval [.int Int64.maxValue, .null] = .null :=
  ⟨rfl, .cons (.inl rfl) (.cons rfl .nil), _, rfl, rfl⟩

end Expr

end TablePipeline

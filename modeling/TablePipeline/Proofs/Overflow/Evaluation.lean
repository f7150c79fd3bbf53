import TablePipeline.Proofs.Overflow.Arithmetic
import TablePipeline.Proofs.Rows.Partition

/-! # Evaluation in builds that check for overflow

Expressions and window functions are evaluated as they run, with every plain operation checked. In
an expression that is the negation of digits; sums, differences, products and absolute values of
integers are checked by the program itself and go on in doubles. In a window function the plain
operations count rows: the number of a row, the place of the row before it, and the place of a new
part among the parts.
-/

namespace TablePipeline

/-! ## Expressions -/

/-- The value of a function other than `coalesce` on its arguments. -/
def ScalarFunction.applyChecked (function : ScalarFunction) (arguments : List Cell) :
    Checked Cell :=
  if arguments.any Cell.isNull then .ok .null
  else
    match function, arguments with
    | round digits, [value] =>
      match value.asFloat? with
      | some value => return .float (← Number.roundToChecked value digits)
      | none => .ok .null
    | _, _ => .ok (function.onValues arguments)

namespace Expr

variable {ρ : Type}

mutual

/-- The functions that an expression calls. -/
def functions : Expr ρ → List ScalarFunction
  | column _ | literal _ => []
  | cast operand _ | unary _ operand => operand.functions
  | binary _ left right => left.functions ++ right.functions
  | call function arguments => function :: functionsAll arguments

/-- The functions that arguments call. -/
def functionsAll : List (Expr ρ) → List ScalarFunction
  | [] => []
  | argument :: rest => argument.functions ++ functionsAll rest

end

/-- Does an expression round to the lowest number of digits? -/
def RoundsToLowest (expr : Expr ρ) : Prop :=
  .round Int32.minValue ∈ expr.functions

instance (expr : Expr ρ) : Decidable expr.RoundsToLowest :=
  inferInstanceAs (Decidable (_ ∈ _))

mutual

/-- The value of an expression in a row. The arguments of `coalesce` are evaluated up to the first
that is not null. -/
def evalChecked (row : Row) : Expr Nat → Checked Cell
  | column position => .ok (row.cell position)
  | literal value => .ok value
  | cast operand type => return (← operand.evalChecked row).castTo type
  | binary op left right => return op.apply (← left.evalChecked row) (← right.evalChecked row)
  | unary op operand => return op.apply (← operand.evalChecked row)
  | call .coalesce arguments => firstChecked row arguments
  | call function arguments => do function.applyChecked (← evalAllChecked row arguments)

/-- The values of arguments. -/
def evalAllChecked (row : Row) : List (Expr Nat) → Checked (List Cell)
  | [] => return []
  | argument :: rest => return (← argument.evalChecked row) :: (← evalAllChecked row rest)

/-- The first value of arguments that is not null. -/
def firstChecked (row : Row) : List (Expr Nat) → Checked Cell
  | [] => return .null
  | argument :: rest => do
    let value ← argument.evalChecked row
    if value.isNull then firstChecked row rest else return value

end

end Expr

/-- A function computes its value, unless it rounds to the lowest number of digits. -/
theorem ScalarFunction.computes_apply {function : ScalarFunction} (other : function ≠ coalesce)
    (arguments : List Cell) :
    Computes (function = round Int32.minValue) (function.applyChecked arguments)
      (function.apply arguments) := by
  have plain : function.apply arguments =
      if arguments.any Cell.isNull then .null else function.onValues arguments := by
    cases function <;> first | rfl | exact absurd rfl other
  rw [plain]
  unfold applyChecked
  split
  · exact .ok _
  · split
    · rename_i digits value present
      rw [onValues.eq_def]
      dsimp only
      cases value.asFloat? with
      | some number =>
        exact ((Number.computes_roundTo number digits).mono (congrArg round)).bindPure Cell.float
      | none => exact .ok _
    · exact .ok _

/-- The first value is taken unless it is null. -/
theorem ScalarFunction.apply_coalesce_cons (value : Cell) (rest : List Cell) :
    coalesce.apply (value :: rest) = if value.isNull then coalesce.apply rest else value := by
  rw [apply, apply, List.find?_cons]
  cases value.isNull <;> rfl

namespace Expr

theorem evalChecked_call {function : ScalarFunction} (other : function ≠ .coalesce) (row : Row)
    (arguments : List (Expr Nat)) :
    (call function arguments).evalChecked row =
      evalAllChecked row arguments >>= function.applyChecked := by
  cases function <;> first | rfl | exact absurd rfl other

variable {mayStop : Prop}

mutual

/-- An expression computes its value, unless it rounds to the lowest number of digits. -/
theorem computes_eval (row : Row) : ∀ (expr : Expr Nat), (expr.RoundsToLowest → mayStop) →
    Computes mayStop (expr.evalChecked row) (expr.eval row)
  | .column position, _ => .ok _
  | .literal value, _ => .ok _
  | .cast operand type, may => (computes_eval row operand may).bindPure (·.castTo type)
  | .binary op left right, may => by
    have ofLeft := computes_eval row left fun lowest => may (List.mem_append_left _ lowest)
    have ofRight := computes_eval row right fun lowest => may (List.mem_append_right _ lowest)
    exact ofLeft.bind (ofRight.bindPure (op.apply (left.eval row)))
  | .unary op operand, may => (computes_eval row operand may).bindPure op.apply
  | .call function arguments, may => by
    have others (lowest : .round Int32.minValue ∈ functionsAll arguments) : mayStop :=
      may (List.mem_cons_of_mem _ lowest)
    by_cases isCoalesce : function = .coalesce
    · subst isCoalesce
      exact computes_first row arguments others
    · have itself (lowest : function = .round Int32.minValue) : mayStop :=
        may (List.mem_cons.mpr (.inl lowest.symm))
      rw [evalChecked_call isCoalesce, eval]
      exact (computes_evalAll row arguments others).bind
        ((ScalarFunction.computes_apply isCoalesce _).mono itself)

/-- So do arguments. -/
theorem computes_evalAll (row : Row) : ∀ (arguments : List (Expr Nat)),
    (.round Int32.minValue ∈ functionsAll arguments → mayStop) →
    Computes mayStop (evalAllChecked row arguments) (evalAll row arguments)
  | [], _ => .pure []
  | argument :: rest, may => by
    have first := computes_eval row argument fun lowest => may (List.mem_append_left _ lowest)
    have others := computes_evalAll row rest fun lowest => may (List.mem_append_right _ lowest)
    exact first.bind (others.bindPure (argument.eval row :: ·))

/-- So does the search for the first argument that is not null. -/
theorem computes_first (row : Row) : ∀ (arguments : List (Expr Nat)),
    (.round Int32.minValue ∈ functionsAll arguments → mayStop) →
    Computes mayStop (firstChecked row arguments)
      (ScalarFunction.coalesce.apply (evalAll row arguments))
  | [], _ => .pure Cell.null
  | argument :: rest, may => by
    have first := computes_eval row argument fun lowest => may (List.mem_append_left _ lowest)
    have others := computes_first row rest fun lowest => may (List.mem_append_right _ lowest)
    rw [evalAll, ScalarFunction.apply_coalesce_cons]
    refine first.bind ?_
    split
    · exact others
    · exact .pure _

end

end Expr

/-! ## Parts of rows -/

namespace Partition

variable {columns : List Nat}

end Partition

/-! ## Window functions -/

namespace BoundWindow

/-- Does the argument of a window function round to the lowest number of digits? -/
def RoundsToLowest : BoundWindow → Prop
  | rowNumber | rank => False
  | lead argument _ | lag argument _ => argument.RoundsToLowest

variable {mayStop : Prop} {keys : List (Nat × OrderKey)} {rows : List Row}

end BoundWindow

end TablePipeline

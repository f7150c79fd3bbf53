import TablePipeline.Proofs.Expr.Scope

/-! # Evaluation against the types

An expression is evaluated from its leaves up, so what relates the values of its parts to their types
relates its own value to its type, if every cast, operator and function carries the relation on. That
a part is carried on can depend on the cells that it meets, and `coalesce` looks at no argument after
the first that is not null, so the cells in question are those of the parts that are evaluated.
-/

namespace TablePipeline

/-- What is asked of the cells that the parts of an expression are applied to. -/
structure Requirement where
  ofCast : CellType → Cell → Prop := fun _ _ => True
  ofBinary : BinaryOp → Cell → Cell → Prop := fun _ _ _ => True
  ofUnary : UnaryOp → Cell → Prop := fun _ _ => True
  ofCall : ScalarFunction → List Cell → Prop := fun _ _ => True

namespace Expr

mutual

/-- Do the cells meet a requirement while an expression is evaluated in a row? -/
def Meets (requirement : Requirement) (row : Row) : Expr Nat → Prop
  | column _ | literal _ => True
  | cast operand type =>
    operand.Meets requirement row ∧ requirement.ofCast type (operand.eval row)
  | binary op left right =>
    left.Meets requirement row ∧ right.Meets requirement row ∧
      requirement.ofBinary op (left.eval row) (right.eval row)
  | unary op operand =>
    operand.Meets requirement row ∧ requirement.ofUnary op (operand.eval row)
  | call .coalesce arguments => MeetsFirst requirement row arguments
  | call function arguments =>
    MeetsAll requirement row arguments ∧ requirement.ofCall function (evalAll row arguments)

/-- Do the cells meet a requirement while arguments are evaluated? -/
def MeetsAll (requirement : Requirement) (row : Row) : List (Expr Nat) → Prop
  | [] => True
  | argument :: rest => argument.Meets requirement row ∧ MeetsAll requirement row rest

/-- Do the cells meet a requirement while arguments are evaluated up to the first that is not
null? -/
def MeetsFirst (requirement : Requirement) (row : Row) : List (Expr Nat) → Prop
  | [] => True
  | argument :: rest =>
    argument.Meets requirement row ∧
      ((argument.eval row).isNull = true → MeetsFirst requirement row rest)

end

end Expr

/-- A relation of types and values that every step of an evaluation carries on, as long as the cells
meet a requirement. -/
structure Requirement.Carries (requirement : Requirement) (suits : ValueType → Cell → Prop) :
    Prop where
  null {value : ValueType} : suits value .null ↔ value.nullable = true
  literal {cell : Cell} {type : CellType} : cell.type? = some type → suits ⟨type, false⟩ cell
  cast {source : ValueType} {target : CellType} {cell : Cell} :
    source.type.castsTo target = true → suits source cell → requirement.ofCast target cell →
      suits ⟨target, source.nullable⟩ (cell.castTo target)
  binary {op : BinaryOp} {context : String} {left right result : ValueType} {a b : Cell} :
    op.infer context left right = .ok result → suits left a → suits right b →
      requirement.ofBinary op a b → suits result (op.apply a b)
  unary {op : UnaryOp} {context : String} {operand result : ValueType} {a : Cell} :
    op.infer context operand = .ok result → suits operand a → requirement.ofUnary op a →
      suits result (op.apply a)
  call {function : ScalarFunction} {context : String} {types : List ValueType}
      {result : ValueType} {arguments : List Cell} :
    function ≠ .coalesce → function.infer context types = .ok result →
      List.Forall₂ suits types arguments → requirement.ofCall function arguments →
        suits result (function.apply arguments)
  coalesce {context : String} {types : List ValueType} {result : ValueType}
      {arguments : List Cell} :
    ScalarFunction.coalesce.infer context types = .ok result →
      (match arguments.find? (!·.isNull) with
        | some cell => ∃ value ∈ types, suits value cell
        | none => types.all (·.nullable) = true) →
        suits result (ScalarFunction.coalesce.apply arguments)

/-- A reference that is typed and bound is to the place of a column of its type. -/
theorem Expr.column_of_typed {schema : Schema} {clause : Clause} {reference : String}
    {type : ValueType} {bound : Expr Nat}
    (typed : (Expr.column reference).infer schema clause = .ok type)
    (resolved : (Expr.column reference).bind schema = .ok bound) :
    ∃ position found, schema.columns[position]? = some found ∧
      type = ⟨found.type, found.nullable⟩ ∧ bound = .column position := by
  simp only [infer, bind_eq_ok, pure_eq_ok, Schema.resolveColumn_eq_ok] at typed
  obtain ⟨found, known, rfl⟩ := typed
  simp only [Expr.bind, bind_eq_ok, pure_eq_ok, Schema.resolve_eq_ok] at resolved
  obtain ⟨position, placed, rfl⟩ := resolved
  rw [Schema.column?_eq_getElem? placed] at known
  exact ⟨position, found, known, rfl, rfl⟩

namespace Requirement.Carries

open TablePipeline.Expr

variable {requirement : Requirement} {suits : ValueType → Cell → Prop} {schema : Schema}
  {clause : Clause} {row : Row}

mutual

/-- If the cells of a row suit their columns, the value of an expression suits its type. -/
theorem eval (carries : requirement.Carries suits)
    (columns : ∀ {position : Nat} {column : Column}, schema.columns[position]? = some column →
      suits ⟨column.type, column.nullable⟩ (row.cell position)) :
    ∀ (expr : Expr String) {type : ValueType} {bound : Expr Nat},
      expr.infer schema clause = .ok type → expr.bind schema = .ok bound →
      bound.Meets requirement row → suits type (bound.eval row)
  | .column reference, type, bound, typed, resolved, _ => by
    obtain ⟨position, found, known, rfl, rfl⟩ := column_of_typed typed resolved
    exact columns known
  | .literal value, type, bound, typed, resolved, _ => by
    rw [Expr.bind, pure_eq_ok] at resolved
    subst resolved
    obtain ⟨found, hasType, rfl⟩ := infer_literal typed
    exact carries.literal hasType
  | .cast operand target, type, bound, typed, resolved, meets => by
    simp only [Expr.bind, bind_eq_ok, pure_eq_ok] at resolved
    obtain ⟨source, resolved, rfl⟩ := resolved
    obtain ⟨meetsOperand, meets⟩ := meets
    rcases infer_cast typed with ⟨rfl, rfl⟩ | ⟨sourceType, sourceTyped, casts, rfl⟩
    · rw [Expr.bind, pure_eq_ok] at resolved
      subst resolved
      exact carries.null.mpr rfl
    · exact carries.cast casts (carries.eval columns operand sourceTyped resolved meetsOperand) meets
  | .binary op left right, type, bound, typed, resolved, meets => by
    simp only [infer, bind_eq_ok] at typed
    obtain ⟨leftType, leftTyped, rightType, rightTyped, typed⟩ := typed
    simp only [Expr.bind, bind_eq_ok, pure_eq_ok] at resolved
    obtain ⟨boundLeft, leftResolved, boundRight, rightResolved, rfl⟩ := resolved
    obtain ⟨meetsLeft, meetsRight, meets⟩ := meets
    exact carries.binary typed (carries.eval columns left leftTyped leftResolved meetsLeft)
      (carries.eval columns right rightTyped rightResolved meetsRight) meets
  | .unary op operand, type, bound, typed, resolved, meets => by
    simp only [infer, bind_eq_ok] at typed
    obtain ⟨operandType, operandTyped, typed⟩ := typed
    simp only [Expr.bind, bind_eq_ok, pure_eq_ok] at resolved
    obtain ⟨source, resolved, rfl⟩ := resolved
    obtain ⟨meetsOperand, meets⟩ := meets
    exact carries.unary typed (carries.eval columns operand operandTyped resolved meetsOperand) meets
  | .call function arguments, type, bound, typed, resolved, meets => by
    simp only [Expr.bind, bind_eq_ok, pure_eq_ok] at resolved
    obtain ⟨each, resolved, rfl⟩ := resolved
    obtain ⟨types, argumentsTyped, typed⟩ := infer_call typed
    by_cases isCoalesce : function = .coalesce
    · subst isCoalesce
      exact carries.coalesce typed (carries.evalFirst columns arguments argumentsTyped resolved meets)
    · have meets : MeetsAll requirement row each ∧
          requirement.ofCall function (Expr.evalAll row each) := by
        cases function <;> first | exact meets | exact absurd rfl isCoalesce
      exact carries.call isCoalesce typed
        (carries.evalAll columns arguments argumentsTyped resolved meets.1) meets.2

/-- If the cells of a row suit their columns, the values of arguments suit their types. -/
theorem evalAll (carries : requirement.Carries suits)
    (columns : ∀ {position : Nat} {column : Column}, schema.columns[position]? = some column →
      suits ⟨column.type, column.nullable⟩ (row.cell position)) :
    ∀ (arguments : List (Expr String)) {types : List ValueType} {bound : List (Expr Nat)},
      inferAll schema clause arguments = .ok types → bindAll schema arguments = .ok bound →
      MeetsAll requirement row bound → List.Forall₂ suits types (Expr.evalAll row bound)
  | [], types, bound, typed, resolved, _ => by
    cases typed
    cases resolved
    exact .nil
  | argument :: rest, types, bound, typed, resolved, meets => by
    simp only [inferAll, bind_eq_ok, pure_eq_ok] at typed
    obtain ⟨first, firstTyped, others, othersTyped, rfl⟩ := typed
    simp only [bindAll, bind_eq_ok, pure_eq_ok] at resolved
    obtain ⟨boundFirst, firstResolved, boundOthers, othersResolved, rfl⟩ := resolved
    obtain ⟨meetsFirst, meetsOthers⟩ := meets
    exact .cons (carries.eval columns argument firstTyped firstResolved meetsFirst)
      (carries.evalAll columns rest othersTyped othersResolved meetsOthers)

/-- Among arguments that are evaluated up to the first that is not null, the value of that one suits
its type; if there is none, all of them may be null. -/
theorem evalFirst (carries : requirement.Carries suits)
    (columns : ∀ {position : Nat} {column : Column}, schema.columns[position]? = some column →
      suits ⟨column.type, column.nullable⟩ (row.cell position)) :
    ∀ (arguments : List (Expr String)) {types : List ValueType} {bound : List (Expr Nat)},
      inferAll schema clause arguments = .ok types → bindAll schema arguments = .ok bound →
      MeetsFirst requirement row bound →
      match (Expr.evalAll row bound).find? (!·.isNull) with
      | some cell => ∃ value ∈ types, suits value cell
      | none => types.all (·.nullable) = true
  | [], types, bound, typed, resolved, _ => by
    cases typed
    cases resolved
    rfl
  | argument :: rest, types, bound, typed, resolved, meets => by
    simp only [inferAll, bind_eq_ok, pure_eq_ok] at typed
    obtain ⟨first, firstTyped, others, othersTyped, rfl⟩ := typed
    simp only [bindAll, bind_eq_ok, pure_eq_ok] at resolved
    obtain ⟨boundFirst, firstResolved, boundOthers, othersResolved, rfl⟩ := resolved
    obtain ⟨meetsFirst, meetsOthers⟩ := meets
    have here := carries.eval columns argument firstTyped firstResolved meetsFirst
    rw [Expr.evalAll, List.find?_cons]
    cases isNull : (boundFirst.eval row).isNull with
    | false => exact ⟨first, List.mem_cons_self .., here⟩
    | true =>
      have later := carries.evalFirst columns rest othersTyped othersResolved (meetsOthers isNull)
      have nullable : first.nullable = true := by
        cases value : boundFirst.eval row with
        | null => exact carries.null.mp (value ▸ here)
        | bool | int | float | text => rw [value] at isNull; cases isNull
      rw [Bool.not_true]
      split at later
      · obtain ⟨value, member, suited⟩ := later
        simp only [*]
        exact ⟨value, List.mem_cons_of_mem _ member, suited⟩
      · simp only [*]
        rw [List.all_cons, nullable, later]
        rfl

end

end Requirement.Carries

end TablePipeline

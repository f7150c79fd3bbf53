import TablePipeline.Expr.Eval
import TablePipeline.Expr.Typing
import TablePipeline.Proofs.Except

/-! # What an expression reads

The type and the value of an expression depend on the columns that it refers to and on nothing else.
An expression that has a type can be bound; two schemas that agree on its columns give it one type;
and its values agree in two rows that hold the same cells in its columns, wherever those columns
stand.
-/

namespace TablePipeline

namespace Schema

/-- The cell of a column in a row, if there is such a column. -/
def read (schema : Schema) (row : Row) (name : String) : Option Cell :=
  (schema.position? name).map row.cell

theorem resolve_eq_ok {schema : Schema} {clause : Clause} {name : String} {position : Nat} :
    schema.resolve clause name = .ok position ↔ schema.position? name = some position := by
  unfold resolve
  cases schema.position? name <;> simp

theorem resolveColumn_eq_ok {schema : Schema} {clause : Clause} {name : String}
    {column : Column} :
    schema.resolveColumn clause name = .ok column ↔ schema.column? name = some column := by
  unfold resolveColumn
  cases schema.column? name <;> simp

/-- A column has a position exactly when it is there. -/
theorem position?_isSome (schema : Schema) (name : String) :
    (schema.position? name).isSome = (schema.column? name).isSome := by
  rw [position?, column?, List.findIdx?_isSome, Bool.eq_iff_iff, List.any_eq_true,
    List.find?_isSome]

/-- The column of a name is the one at its position. -/
theorem column?_eq_getElem? {schema : Schema} {name : String} {position : Nat}
    (placed : schema.position? name = some position) :
    schema.column? name = schema.columns[position]? := by
  rw [position?] at placed
  rw [column?, List.find?_eq_bind_findIdx?_getElem?, placed, Option.bind_some]

theorem nameAt_of_getElem? {schema : Schema} {index : Nat} {column : Column}
    (isColumn : schema.columns[index]? = some column) : schema.nameAt index = column.name := by
  rw [nameAt, isColumn]
  rfl

end Schema

namespace Expr

variable {before after : Schema} {clause clause' : Clause}

/-- A literal that has a type is not null. -/
theorem infer_literal {value : Cell} {type : ValueType}
    (typed : (literal value).infer before clause = .ok type) :
    ∃ found, value.type? = some found ∧ type = ⟨found, false⟩ := by
  rw [infer] at typed
  split at typed
  · rename_i found hasType
    exact ⟨found, hasType, (Except.ok.inj typed).symm⟩
  · cases typed

/-- A call that has a type has arguments that have types. -/
theorem infer_call {function : ScalarFunction} {arguments : List (Expr String)} {type : ValueType}
    (typed : (call function arguments).infer before clause = .ok type) :
    ∃ types, inferAll before clause arguments = .ok types ∧
      function.infer (text (call function arguments)) types = .ok type := by
  rw [infer] at typed
  split at typed
  · split at typed
    · exact bind_eq_ok.mp typed
    · cases typed
  · exact bind_eq_ok.mp typed

/-- A cast that has a type casts the null literal, or values of a type that may be cast. -/
theorem infer_cast {operand : Expr String} {target : CellType} {type : ValueType}
    (typed : (cast operand target).infer before clause = .ok type) :
    (operand = .literal .null ∧ type = ⟨target, true⟩) ∨
      ∃ source, operand.infer before clause = .ok source ∧
        source.type.castsTo target = true ∧ type = ⟨target, source.nullable⟩ := by
  rw [infer] at typed
  split at typed
  · rename_i isNull
    cases typed
    cases operand with
    | literal value =>
      cases value with
      | null => exact .inl ⟨rfl, rfl⟩
      | bool | int | float | text => cases isNull
    | column | cast | binary | unary | call => cases isNull
  · obtain ⟨source, sourceTyped, typed⟩ := bind_eq_ok.mp typed
    split at typed
    · rename_i casts
      exact .inr ⟨source, sourceTyped, casts, (pure_eq_ok.mp typed).symm⟩
    · simp at typed

mutual

/-- An expression that has a type refers to columns that are there. -/
theorem resolves_of_infer :
    ∀ (expr : Expr String) {type : ValueType}, expr.infer before clause = .ok type →
      ∀ name ∈ expr.references, (before.position? name).isSome
  | column reference, type, typed, name, member => by
    simp only [infer, bind_eq_ok, Schema.resolveColumn_eq_ok] at typed
    obtain ⟨found, known, _⟩ := typed
    rw [references, List.mem_singleton] at member
    rw [Schema.position?_isSome, member, known, Option.isSome_some]
  | literal value, type, typed, name, member => by
    rw [references] at member
    cases member
  | cast operand target, type, typed, name, member => by
    rw [references] at member
    rcases infer_cast typed with ⟨rfl, _⟩ | ⟨source, typed, _⟩
    · cases member
    · exact resolves_of_infer operand typed name member
  | binary op left right, type, typed, name, member => by
    simp only [infer, bind_eq_ok] at typed
    obtain ⟨leftType, leftTyped, rightType, rightTyped, _⟩ := typed
    rw [references, List.mem_append] at member
    rcases member with member | member
    · exact resolves_of_infer left leftTyped name member
    · exact resolves_of_infer right rightTyped name member
  | unary op operand, type, typed, name, member => by
    simp only [infer, bind_eq_ok] at typed
    obtain ⟨operandType, typed, _⟩ := typed
    rw [references] at member
    exact resolves_of_infer operand typed name member
  | call function arguments, type, typed, name, member => by
    rw [references] at member
    obtain ⟨types, typed, _⟩ := infer_call typed
    exact resolves_of_inferAll arguments typed name member

/-- Arguments that have types refer to columns that are there. -/
theorem resolves_of_inferAll :
    ∀ (arguments : List (Expr String)) {types : List ValueType},
      inferAll before clause arguments = .ok types →
      ∀ name ∈ referencesAll arguments, (before.position? name).isSome
  | [], types, typed, name, member => by
    rw [referencesAll] at member
    cases member
  | argument :: rest, types, typed, name, member => by
    simp only [inferAll, bind_eq_ok] at typed
    obtain ⟨first, firstTyped, others, othersTyped, _⟩ := typed
    rw [referencesAll, List.mem_append] at member
    rcases member with member | member
    · exact resolves_of_infer argument firstTyped name member
    · exact resolves_of_inferAll rest othersTyped name member

end

mutual

/-- An expression whose columns are there can be bound. -/
theorem bind_of_resolves :
    ∀ (expr : Expr String), (∀ name ∈ expr.references, (before.position? name).isSome) →
      ∃ bound, expr.bind before = .ok bound
  | column reference, known => by
    obtain ⟨position, placed⟩ :=
      Option.isSome_iff_exists.mp (known reference (List.mem_singleton.mpr rfl))
    have resolved : before.resolve .evaluation reference = .ok position :=
      Schema.resolve_eq_ok.mpr placed
    exact ⟨column position, by rw [bind, resolved]; rfl⟩
  | literal value, _ => ⟨literal value, rfl⟩
  | cast operand type, known => by
    obtain ⟨bound, resolved⟩ := bind_of_resolves operand known
    exact ⟨cast bound type, by rw [bind, resolved]; rfl⟩
  | binary op left right, known => by
    obtain ⟨boundLeft, leftResolved⟩ := bind_of_resolves left fun name member =>
      known name (List.mem_append_left _ member)
    obtain ⟨boundRight, rightResolved⟩ := bind_of_resolves right fun name member =>
      known name (List.mem_append_right _ member)
    exact ⟨binary op boundLeft boundRight, by rw [bind, leftResolved, rightResolved]; rfl⟩
  | unary op operand, known => by
    obtain ⟨bound, resolved⟩ := bind_of_resolves operand known
    exact ⟨unary op bound, by rw [bind, resolved]; rfl⟩
  | call function arguments, known => by
    obtain ⟨bound, resolved⟩ := bindAll_of_resolves arguments known
    exact ⟨call function bound, by rw [bind, resolved]; rfl⟩

/-- Arguments whose columns are there can be bound. -/
theorem bindAll_of_resolves :
    ∀ (arguments : List (Expr String)),
      (∀ name ∈ referencesAll arguments, (before.position? name).isSome) →
      ∃ bound, bindAll before arguments = .ok bound
  | [], _ => ⟨[], rfl⟩
  | argument :: rest, known => by
    obtain ⟨first, firstResolved⟩ := bind_of_resolves argument fun name member =>
      known name (List.mem_append_left _ member)
    obtain ⟨others, othersResolved⟩ := bindAll_of_resolves rest fun name member =>
      known name (List.mem_append_right _ member)
    exact ⟨first :: others, by rw [bindAll, firstResolved, othersResolved]; rfl⟩

end

mutual

/-- Schemas that agree on the columns of an expression give it one type, in every clause. -/
theorem infer_of_agree :
    ∀ (expr : Expr String) {type : ValueType},
      (∀ name ∈ expr.references, before.column? name = after.column? name) →
      expr.infer before clause = .ok type → expr.infer after clause' = .ok type
  | column reference, type, agree, typed => by
    simp only [infer, bind_eq_ok, Schema.resolveColumn_eq_ok] at typed ⊢
    obtain ⟨found, known, result⟩ := typed
    exact ⟨found, by rw [← agree reference (List.mem_singleton.mpr rfl), known], result⟩
  | literal value, type, agree, typed => typed
  | cast operand target, type, agree, typed => by
    rw [infer] at typed ⊢
    split at typed
    · rw [if_pos ‹_›]
      exact typed
    · obtain ⟨source, sourceTyped, result⟩ := bind_eq_ok.mp typed
      have sourceTyped' := infer_of_agree operand agree sourceTyped
      rw [if_neg ‹_›, sourceTyped', ok_bind, result]
  | binary op left right, type, agree, typed => by
    simp only [infer, bind_eq_ok] at typed ⊢
    obtain ⟨leftType, leftTyped, rightType, rightTyped, result⟩ := typed
    refine ⟨leftType, infer_of_agree left (fun name member => ?_) leftTyped, rightType,
      infer_of_agree right (fun name member => ?_) rightTyped, result⟩
    · exact agree name (List.mem_append_left _ member)
    · exact agree name (List.mem_append_right _ member)
  | unary op operand, type, agree, typed => by
    simp only [infer, bind_eq_ok] at typed ⊢
    obtain ⟨operandType, operandTyped, result⟩ := typed
    exact ⟨operandType, infer_of_agree operand agree operandTyped, result⟩
  | call function arguments, type, agree, typed => by
    have transfer {types : List ValueType} (each : inferAll before clause arguments = .ok types) :
        inferAll after clause' arguments = .ok types :=
      inferAll_of_agree arguments agree each
    rw [infer] at typed ⊢
    split at typed
    · split at typed
      · obtain ⟨types, each, result⟩ := bind_eq_ok.mp typed
        rw [if_pos ‹_›, transfer each, ok_bind, result]
      · cases typed
    · obtain ⟨types, each, result⟩ := bind_eq_ok.mp typed
      rw [transfer each, ok_bind, result]

/-- Schemas that agree on the columns of arguments give them the same types. -/
theorem inferAll_of_agree :
    ∀ (arguments : List (Expr String)) {types : List ValueType},
      (∀ name ∈ referencesAll arguments, before.column? name = after.column? name) →
      inferAll before clause arguments = .ok types → inferAll after clause' arguments = .ok types
  | [], types, agree, typed => typed
  | argument :: rest, types, agree, typed => by
    simp only [inferAll, bind_eq_ok] at typed ⊢
    obtain ⟨first, firstTyped, others, othersTyped, result⟩ := typed
    refine ⟨first, infer_of_agree argument (fun name member => ?_) firstTyped, others,
      inferAll_of_agree rest (fun name member => ?_) othersTyped, result⟩
    · exact agree name (List.mem_append_left _ member)
    · exact agree name (List.mem_append_right _ member)

end

variable {row row' : Row}

mutual

/-- Rows that hold the same cells in the columns of an expression give it one value. -/
theorem eval_congr :
    ∀ (expr : Expr String) {bound bound' : Expr Nat},
      (∀ name ∈ expr.references, before.read row name = after.read row' name) →
      expr.bind before = .ok bound → expr.bind after = .ok bound' →
      bound.eval row = bound'.eval row'
  | column reference, bound, bound', agree, resolved, resolved' => by
    simp only [bind, bind_eq_ok, pure_eq_ok, Schema.resolve_eq_ok] at resolved resolved'
    obtain ⟨position, placed, rfl⟩ := resolved
    obtain ⟨position', placed', rfl⟩ := resolved'
    have cells := agree reference (List.mem_singleton.mpr rfl)
    rw [Schema.read, Schema.read, placed, placed'] at cells
    exact Option.some.inj cells
  | literal value, bound, bound', agree, resolved, resolved' => by
    simp only [bind, pure_eq_ok] at resolved resolved'
    subst resolved resolved'
    rfl
  | cast operand type, bound, bound', agree, resolved, resolved' => by
    simp only [bind, bind_eq_ok, pure_eq_ok] at resolved resolved'
    obtain ⟨source, resolved, rfl⟩ := resolved
    obtain ⟨source', resolved', rfl⟩ := resolved'
    rw [eval, eval, eval_congr operand agree resolved resolved']
  | binary op left right, bound, bound', agree, resolved, resolved' => by
    simp only [bind, bind_eq_ok, pure_eq_ok] at resolved resolved'
    obtain ⟨boundLeft, leftResolved, boundRight, rightResolved, rfl⟩ := resolved
    obtain ⟨boundLeft', leftResolved', boundRight', rightResolved', rfl⟩ := resolved'
    have lefts : boundLeft.eval row = boundLeft'.eval row' :=
      eval_congr left (fun name member => agree name (List.mem_append_left _ member)) leftResolved
        leftResolved'
    have rights : boundRight.eval row = boundRight'.eval row' :=
      eval_congr right (fun name member => agree name (List.mem_append_right _ member))
        rightResolved rightResolved'
    rw [eval, eval, lefts, rights]
  | unary op operand, bound, bound', agree, resolved, resolved' => by
    simp only [bind, bind_eq_ok, pure_eq_ok] at resolved resolved'
    obtain ⟨source, resolved, rfl⟩ := resolved
    obtain ⟨source', resolved', rfl⟩ := resolved'
    rw [eval, eval, eval_congr operand agree resolved resolved']
  | call function arguments, bound, bound', agree, resolved, resolved' => by
    simp only [bind, bind_eq_ok, pure_eq_ok] at resolved resolved'
    obtain ⟨each, resolved, rfl⟩ := resolved
    obtain ⟨each', resolved', rfl⟩ := resolved'
    rw [eval, eval, evalAll_congr arguments agree resolved resolved']

/-- Rows that hold the same cells in the columns of arguments give them the same values. -/
theorem evalAll_congr :
    ∀ (arguments : List (Expr String)) {bound bound' : List (Expr Nat)},
      (∀ name ∈ referencesAll arguments, before.read row name = after.read row' name) →
      bindAll before arguments = .ok bound → bindAll after arguments = .ok bound' →
      evalAll row bound = evalAll row' bound'
  | [], bound, bound', agree, resolved, resolved' => by
    simp only [bindAll, pure_eq_ok] at resolved resolved'
    subst resolved resolved'
    rfl
  | argument :: rest, bound, bound', agree, resolved, resolved' => by
    simp only [bindAll, bind_eq_ok, pure_eq_ok] at resolved resolved'
    obtain ⟨first, firstResolved, others, othersResolved, rfl⟩ := resolved
    obtain ⟨first', firstResolved', others', othersResolved', rfl⟩ := resolved'
    have firsts : first.eval row = first'.eval row' :=
      eval_congr argument (fun name member => agree name (List.mem_append_left _ member))
        firstResolved firstResolved'
    have restAgrees : evalAll row others = evalAll row' others' :=
      evalAll_congr rest (fun name member => agree name (List.mem_append_right _ member))
        othersResolved othersResolved'
    rw [evalAll, evalAll, firsts, restAgrees]

end

/-- The listed columns of an expression are those that it refers to. -/
theorem mem_columns {expr : Expr String} {name : String} :
    name ∈ expr.columns ↔ name ∈ expr.references :=
  List.mem_eraseDups

/-- A predicate holds in both of two rows or in none, if they hold the same cells in its columns. -/
theorem holds_congr {predicate : Expr String} {bound bound' : Expr Nat}
    (agree : ∀ name ∈ predicate.references, before.read row name = after.read row' name)
    (resolved : predicate.bind before = .ok bound) (resolved' : predicate.bind after = .ok bound') :
    bound.holds row = bound'.holds row' := by
  rw [holds, holds, eval_congr predicate agree resolved resolved']

end Expr

end TablePipeline

import TablePipeline.Proofs.Chain.Reads
import TablePipeline.Proofs.Overflow.Evaluation
import TablePipeline.Sql.Query

/-! # Queries in builds that check for overflow

Expressions and window functions are written for an engine as they are, with every plain operation
checked. Only SQLite is written scaled operands, so only its queries may stop at the lowest number of
digits. Together with evaluation this bounds what plain arithmetic can do in everything that typing
admits: one operation on one number overflows, and nothing else does.
-/

namespace TablePipeline

/-- What keeps a part of a query from being written. -/
inductive DraftFault where
  | compile (error : CompileError)
  | overflow (overflow : Overflow)

/-- A part of a query that is being written, with its arithmetic checked. -/
abbrev CheckedDrafting := StateT SqlDraft (Except DraftFault)

section Actions

variable {α β : Type}

/-- A part of a query without plain operations. -/
def Drafting.checked (action : Drafting α) : CheckedDrafting α :=
  fun draft => (action draft).mapError .compile

theorem CheckedDrafting.bind_run (first : CheckedDrafting α) (next : α → CheckedDrafting β)
    (draft : SqlDraft) :
    (first >>= next) draft = first draft >>= fun answer => next answer.1 answer.2 := rfl

/-- The parts of a query are written one after the other. -/
theorem Drafting.checked_bind (first : Drafting α) (next : α → Drafting β) :
    (first >>= next).checked = first.checked >>= fun value => (next value).checked := by
  funext draft
  rw [CheckedDrafting.bind_run, checked, checked]
  change (first draft >>= fun answer => next answer.1 answer.2).mapError DraftFault.compile = _
  cases first draft <;> rfl

/-- A computation in front of the rest of a query. -/
def Checked.drafting (computation : Checked α) : CheckedDrafting α :=
  fun draft => (computation.map (·, draft)).mapError .overflow

/-- Is a part of a query written as it is without checks or, where that may be, does it stop at the
negated lowest digits? -/
def Writes (mayStop : Prop) (checked : CheckedDrafting α) (plain : Drafting α) : Prop :=
  ∀ draft, checked draft = plain.checked draft ∨
    mayStop ∧ checked draft = .error (.overflow .lowestNegated)

namespace Writes

variable {mayStop : Prop}

theorem pure (value : α) : Writes mayStop (Pure.pure value) (Pure.pure value) :=
  fun _ => .inl rfl

theorem checked (action : Drafting α) : Writes mayStop action.checked action :=
  fun _ => .inl rfl

theorem bind {first : CheckedDrafting α} {first' : Drafting α} {next : α → CheckedDrafting β}
    {next' : α → Drafting β} (early : Writes mayStop first first')
    (late : ∀ value, Writes mayStop (next value) (next' value)) :
    Writes mayStop (first >>= next) (first' >>= next') := by
  intro draft
  rw [CheckedDrafting.bind_run, Drafting.checked_bind, CheckedDrafting.bind_run]
  rcases early draft with same | ⟨may, stops⟩
  · rw [same]
    cases first'.checked draft with
    | error error => exact .inl rfl
    | ok answer => exact late answer.1 answer.2
  · exact .inr ⟨may, by rw [stops, error_bind]⟩

theorem bindPure {first : CheckedDrafting α} {first' : Drafting α}
    (early : Writes mayStop first first') (f : α → β) :
    Writes mayStop (first >>= fun value => Pure.pure (f value))
      (first' >>= fun value => Pure.pure (f value)) :=
  early.bind fun value => .pure (f value)

/-- What is computed in front of the rest of a query does not show in it. -/
theorem after {computation : Checked α} {value : α} {next : α → CheckedDrafting β}
    {plain : Drafting β} (computes : Computes mayStop computation value)
    (rest : Writes mayStop (next value) plain) :
    Writes mayStop (computation.drafting >>= next) plain := by
  rcases computes with rfl | ⟨may, rfl⟩
  · exact rest
  · exact fun _ => .inr ⟨may, rfl⟩

end Writes

end Actions

/-! ## Expressions -/

/-- A scalar function, if the engine has it. -/
def Sql.scalarChecked? (dialect : Dialect) (function : ScalarFunction) (arguments : List Sql) :
    Checked (Option Sql) :=
  match function, arguments with
  | .round digits, [operand] => return some (← roundChecked dialect digits operand)
  | _, _ => .ok (scalar? dialect function arguments)

theorem Sql.computes_scalar (dialect : Dialect) (function : ScalarFunction)
    (arguments : List Sql) :
    Computes (dialect = .sqlite ∧ function = .round Int32.minValue)
      (scalarChecked? dialect function arguments) (scalar? dialect function arguments) := by
  unfold scalarChecked?
  split
  · rename_i digits operand
    refine Computes.bindPure ((computes_round dialect digits operand).mono fun stops => ?_) some
    exact ⟨stops.1, congrArg ScalarFunction.round stops.2⟩
  · exact .ok _

namespace Expr

mutual

/-- An expression over the columns of a schema. -/
def draftChecked (dialect : Dialect) (style : LiteralStyle) (schema : Schema) :
    Expr String → CheckedDrafting Sql
  | column name => return .name name
  | literal .null => return .words "NULL"
  | literal value => (Drafting.literal style value).checked
  | cast operand type =>
    if operand.isNullLiteral then return .cast (.words "NULL") (dialect.typeName type)
    else do
      let source ← (Drafting.typeOf schema operand).checked
      return .convert dialect (← operand.draftChecked dialect style schema) source type
  | binary op left right => do
    let left ← left.draftChecked dialect style schema
    let right ← right.draftChecked dialect style schema
    return .binary dialect op left right
  | unary op operand => return .unary op (← operand.draftChecked dialect style schema)
  | call function arguments => do
    let arguments ← draftAllChecked dialect style schema arguments
    match ← (Sql.scalarChecked? dialect function arguments).drafting with
    | some sql => return sql
    | none => throw (.compile (.unsupported dialect function.name))

/-- Arguments over the columns of a schema. -/
def draftAllChecked (dialect : Dialect) (style : LiteralStyle) (schema : Schema) :
    List (Expr String) → CheckedDrafting (List Sql)
  | [] => return []
  | argument :: rest => do
    let first ← argument.draftChecked dialect style schema
    return first :: (← draftAllChecked dialect style schema rest)

end

variable {schema : Schema} {mayStop : Prop}

mutual

/-- An expression is written as it is, unless it rounds to the lowest number of digits for SQLite. -/
theorem writes_draft (dialect : Dialect) (style : LiteralStyle) :
    ∀ (expr : Expr String), (dialect = .sqlite → expr.RoundsToLowest → mayStop) →
      Writes mayStop (expr.draftChecked dialect style schema) (expr.draft dialect style schema)
  | .column name, _ => .pure _
  | .literal value, _ => by
    cases value with
    | null => exact .pure _
    | bool | int | float | text => exact .checked _
  | .cast operand type, may => by
    rw [draftChecked, draft]
    split
    · exact .pure _
    · exact (Writes.checked _).bind fun source => (writes_draft dialect style operand may).bindPure _
  | .binary op left right, may => by
    have ofLeft := writes_draft dialect style left fun sqlite lowest =>
      may sqlite (List.mem_append_left _ lowest)
    have ofRight := writes_draft dialect style right fun sqlite lowest =>
      may sqlite (List.mem_append_right _ lowest)
    exact ofLeft.bind fun left => ofRight.bindPure _
  | .unary op operand, may => (writes_draft dialect style operand may).bindPure _
  | .call function arguments, may => by
    have written := writes_draftAll dialect style arguments fun sqlite lowest =>
      may sqlite (List.mem_cons_of_mem _ lowest)
    refine written.bind fun arguments => ?_
    have scalar := (Sql.computes_scalar dialect function arguments).mono fun stops =>
      may stops.1 (List.mem_cons.mpr (.inl stops.2.symm))
    refine Writes.after scalar ?_
    cases Sql.scalar? dialect function arguments with
    | some sql => exact .pure sql
    | none => exact fun _ => .inl rfl

/-- So are arguments. -/
theorem writes_draftAll (dialect : Dialect) (style : LiteralStyle) :
    ∀ (arguments : List (Expr String)),
      (dialect = .sqlite → .round Int32.minValue ∈ functionsAll arguments → mayStop) →
      Writes mayStop (draftAllChecked dialect style schema arguments)
        (draftAll dialect style schema arguments)
  | [], _ => .pure _
  | argument :: rest, may => by
    have first := writes_draft dialect style argument fun sqlite lowest =>
      may sqlite (List.mem_append_left _ lowest)
    have others := writes_draftAll dialect style rest fun sqlite lowest =>
      may sqlite (List.mem_append_right _ lowest)
    exact first.bind fun sql => others.bindPure (sql :: ·)

end

end Expr

/-! ## Window functions -/

namespace WindowFunction

/-- Does the argument of a window function round to the lowest number of digits? -/
def RoundsToLowest : WindowFunction → Prop
  | rowNumber | rank => False
  | lead argument _ | lag argument _ => argument.RoundsToLowest

/-- A window function. -/
def draftChecked (dialect : Dialect) (style : LiteralStyle) (schema : Schema) :
    WindowFunction → CheckedDrafting Sql
  | rowNumber => return .words "ROW_NUMBER()"
  | rank => return .words "RANK()"
  | lead argument offset => do
    let argument ← argument.draftChecked dialect style schema
    return .call "LEAD" [argument, .words (toString offset.toNat)]
  | lag argument offset => do
    let argument ← argument.draftChecked dialect style schema
    return .call "LAG" [argument, .words (toString offset.toNat)]

variable {schema : Schema} {mayStop : Prop}

theorem writes_draft (dialect : Dialect) (style : LiteralStyle) (function : WindowFunction)
    (may : dialect = .sqlite → function.RoundsToLowest → mayStop) :
    Writes mayStop (function.draftChecked dialect style schema)
      (function.draft dialect style schema) := by
  cases function with
  | rowNumber | rank => exact .pure _
  | lead argument offset | lag argument offset =>
    exact (argument.writes_draft dialect style may).bindPure _

end WindowFunction

/-! ## What is bound -/

namespace Expr

variable {schema : Schema}

mutual

/-- Binding an expression to a schema keeps the functions that it calls. -/
theorem functions_of_bind : ∀ (expr : Expr String) {bound : Expr Nat},
    expr.bind schema = .ok bound → bound.functions = expr.functions
  | .column name, bound, resolved => by
    simp only [Expr.bind, bind_eq_ok, pure_eq_ok] at resolved
    obtain ⟨_, _, rfl⟩ := resolved
    rfl
  | .literal value, bound, resolved => by
    simp only [Expr.bind, pure_eq_ok] at resolved
    subst resolved
    rfl
  | .cast operand type, bound, resolved => by
    simp only [Expr.bind, bind_eq_ok, pure_eq_ok] at resolved
    obtain ⟨inner, below, rfl⟩ := resolved
    rw [functions, functions, functions_of_bind operand below]
  | .binary op left right, bound, resolved => by
    simp only [Expr.bind, bind_eq_ok, pure_eq_ok] at resolved
    obtain ⟨ofLeft, left', ofRight, right', rfl⟩ := resolved
    rw [functions, functions, functions_of_bind left left', functions_of_bind right right']
  | .unary op operand, bound, resolved => by
    simp only [Expr.bind, bind_eq_ok, pure_eq_ok] at resolved
    obtain ⟨inner, below, rfl⟩ := resolved
    rw [functions, functions, functions_of_bind operand below]
  | .call function arguments, bound, resolved => by
    simp only [Expr.bind, bind_eq_ok, pure_eq_ok] at resolved
    obtain ⟨inner, resolved, rfl⟩ := resolved
    rw [functions, functions, functionsAll_of_bind arguments resolved]

theorem functionsAll_of_bind : ∀ (arguments : List (Expr String)) {bound : List (Expr Nat)},
    bindAll schema arguments = .ok bound → functionsAll bound = functionsAll arguments
  | [], bound, resolved => by
    simp only [bindAll, pure_eq_ok] at resolved
    subst resolved
    rfl
  | argument :: rest, bound, resolved => by
    simp only [bindAll, bind_eq_ok, pure_eq_ok] at resolved
    obtain ⟨first, ofFirst, others, ofOthers, rfl⟩ := resolved
    rw [functionsAll, functionsAll, functions_of_bind argument ofFirst,
      functionsAll_of_bind rest ofOthers]

end

end Expr

end TablePipeline

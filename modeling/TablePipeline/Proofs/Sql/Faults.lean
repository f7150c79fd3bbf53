import TablePipeline.Proofs.Chain.Invariants
import TablePipeline.Proofs.Chain.Widening
import TablePipeline.Proofs.Rows.Windows
import TablePipeline.Proofs.Sql.Queries

/-! # What keeps a query from being written

A part of a query is written, or it fails with one of the faults of what it is written for. A scalar
expression that has a type has one kind of fault: it calls a function that the engine lacks. Its type
is not among them, although it is inferred once more for the operands of casts.
-/

namespace TablePipeline

/-! ## Actions that fail -/

namespace Drafting

variable {α β : Type} {faults others : Set CompileError}

/-- Does an action give an answer if there are no faults, and fail with one of them if there are? -/
def Throws (action : Drafting α) (faults : Set CompileError) : Prop :=
  ∀ draft, (faults = ∅ ∧ ∃ answer, action draft = .ok answer) ∨
    ∃ fault ∈ faults, action draft = .error fault

theorem Throws.pure (value : α) : Throws (Pure.pure value) ∅ :=
  fun draft => .inl ⟨rfl, (value, draft), rfl⟩

theorem Throws.throw (fault : CompileError) : Throws (MonadExcept.throw fault : Drafting α) {fault} :=
  fun _ => .inr ⟨fault, rfl, rfl⟩

/-- What follows an action that gives an answer may have faults of its own. -/
theorem Throws.bindAnswer {first : Drafting α} {next : α → Drafting β} (early : Throws first faults)
    (late : ∀ draft answer, first draft = .ok answer → Throws (next answer.1) others) :
    Throws (first >>= next) (faults ∪ others) := by
  intro draft
  rcases early draft with ⟨rfl, answer, given⟩ | ⟨fault, member, failed⟩
  · have same : (first >>= next) draft = next answer.1 answer.2 := by
      change (first draft >>= fun answer => next answer.1 answer.2) = _
      rw [given, ok_bind]
    rw [same, Set.empty_union]
    exact late draft answer given answer.2
  · refine .inr ⟨fault, .inl member, ?_⟩
    change (first draft >>= fun answer => next answer.1 answer.2) = _
    rw [failed, error_bind]

theorem Throws.bind {first : Drafting α} {next : α → Drafting β} (early : Throws first faults)
    (late : ∀ value, Throws (next value) others) : Throws (first >>= next) (faults ∪ others) :=
  early.bindAnswer fun _ answer _ => late answer.1

theorem Throws.bindPure {first : Drafting α} (early : Throws first faults) (f : α → β) :
    Throws (first >>= fun value => Pure.pure (f value)) faults := by
  rw [← Set.union_empty faults]
  exact early.bind fun value => .pure (f value)

/-- An action that always gives an answer adds no faults. -/
theorem Throws.after {first : Drafting α} {next : α → Drafting β} (early : Throws first ∅)
    (late : ∀ value, Throws (next value) faults) : Throws (first >>= next) faults := by
  rw [← Set.empty_union faults]
  exact early.bind late

theorem Throws.mapM {f : α → Drafting β} {items : List α} {faults : α → Set CompileError}
    (each : ∀ item ∈ items, Throws (f item) (faults item)) :
    Throws (items.mapM f) {fault | ∃ item ∈ items, fault ∈ faults item} := by
  induction items with
  | nil =>
    have none : {fault | ∃ item ∈ ([] : List α), fault ∈ faults item} = ∅ := by simp
    rw [none]
    exact .pure []
  | cons item rest ih =>
    have split : {fault | ∃ other ∈ item :: rest, fault ∈ faults other} =
        faults item ∪ {fault | ∃ other ∈ rest, fault ∈ faults other} := by
      ext fault
      simp
    rw [List.mapM_cons, split]
    exact (each item (List.mem_cons_self ..)).bind fun first =>
      (ih fun other member => each other (List.mem_cons_of_mem _ member)).bindPure (first :: ·)

theorem throws_newAlias : Throws newAlias ∅ :=
  fun _ => .inl ⟨rfl, _, newAlias_eq⟩

theorem throws_literal (style : LiteralStyle) (cell : Cell) : Throws (literal style cell) ∅ := by
  cases style with
  | inPlace => exact .pure _
  | bound => exact fun draft => .inl ⟨rfl, _, literal_bound cell⟩

end Drafting

open Drafting (Throws)

/-! ## Calls -/

/-- Is a function missing from an engine? -/
def Dialect.Lacks (dialect : Dialect) (function : ScalarFunction) : Prop :=
  dialect = .sqlite ∧ (function = .sqrt ∨ function = .pow)

/-- The fault of a call of a function that is missing. -/
def Dialect.missing (dialect : Dialect) (function : ScalarFunction) : Set CompileError :=
  {fault | dialect.Lacks function ∧ fault = .unsupported dialect function.name}

theorem Dialect.missing_of_lacks {dialect : Dialect} {function : ScalarFunction}
    (lacks : dialect.Lacks function) :
    dialect.missing function = {.unsupported dialect function.name} := by
  simp [missing, lacks]

theorem Dialect.missing_of_has {dialect : Dialect} {function : ScalarFunction}
    (has : ¬ dialect.Lacks function) : dialect.missing function = ∅ := by
  simp [missing, has]

/-- A function of arguments that fit is written for every engine that has it. -/
theorem Sql.scalar?_eq_none {dialect : Dialect} {function : ScalarFunction} {text : String}
    {types : List ValueType} {value : ValueType} (typed : function.infer text types = .ok value)
    {arguments : List Sql} (fit : arguments.length = types.length) :
    scalar? dialect function arguments = none ↔ dialect.Lacks function := by
  unfold ScalarFunction.infer at typed
  split at typed
  · obtain ⟨operand, rfl⟩ := List.length_eq_one_iff.mp fit
    simp [scalar?, Dialect.Lacks]
  · obtain ⟨operand, rfl⟩ := List.length_eq_one_iff.mp fit
    simp [scalar?, Dialect.Lacks]
  · obtain ⟨operand, rfl⟩ := List.length_eq_one_iff.mp fit
    cases dialect <;> simp [scalar?, Dialect.Lacks]
  · obtain ⟨base, exponent, rfl⟩ := List.length_eq_two.mp fit
    cases dialect <;> simp [scalar?, Dialect.Lacks]
  · obtain ⟨operand, rfl⟩ := List.length_eq_one_iff.mp fit
    simp [scalar?, Dialect.Lacks]
  · obtain ⟨first, rest, rfl⟩ := List.exists_cons_of_length_eq_add_one fit
    simp [scalar?, Dialect.Lacks]
  · cases typed

namespace Expr

variable {dialect : Dialect} {style : LiteralStyle} {schema : Schema}

/-- Does an expression contain a call of a function? -/
def Calls (function : ScalarFunction) (expr : Expr String) : Prop :=
  ∃ arguments, call function arguments ∈ expr.parts

/-- The faults of an expression: calls of functions that the engine lacks. -/
def faults (dialect : Dialect) (expr : Expr String) : Set CompileError :=
  {fault | ∃ function, expr.Calls function ∧ fault ∈ dialect.missing function}

/-- The faults of arguments. -/
def faultsAll (dialect : Dialect) (arguments : List (Expr String)) : Set CompileError :=
  {fault | ∃ argument ∈ arguments, fault ∈ argument.faults dialect}

theorem mem_partsAll {part : Expr String} {arguments : List (Expr String)} :
    part ∈ partsAll arguments ↔ ∃ argument ∈ arguments, part ∈ argument.parts := by
  induction arguments with
  | nil => simp [partsAll]
  | cons argument rest ih => simp [partsAll, ih]

theorem faults_column (name : String) : (column name).faults dialect = ∅ := by
  simp [faults, Calls, parts]

theorem faults_literal (cell : Cell) : (literal cell : Expr String).faults dialect = ∅ := by
  simp [faults, Calls, parts]

theorem faults_cast (operand : Expr String) (type : CellType) :
    (cast operand type).faults dialect = operand.faults dialect := by
  simp [faults, Calls, parts]

theorem faults_unary (op : UnaryOp) (operand : Expr String) :
    (unary op operand).faults dialect = operand.faults dialect := by
  simp [faults, Calls, parts]

theorem faults_binary (op : BinaryOp) (left right : Expr String) :
    (binary op left right).faults dialect = left.faults dialect ∪ right.faults dialect := by
  ext fault
  simp [faults, Calls, parts, exists_or, or_and_right]

theorem calls_call {function called : ScalarFunction} {arguments : List (Expr String)} :
    (call called arguments).Calls function ↔
      function = called ∨ ∃ argument ∈ arguments, argument.Calls function := by
  simp only [Calls, parts, List.mem_cons, mem_partsAll, call.injEq]
  constructor
  · rintro ⟨inner, ⟨rfl, _⟩ | ⟨argument, member, isPart⟩⟩
    · exact .inl rfl
    · exact .inr ⟨argument, member, inner, isPart⟩
  · rintro (rfl | ⟨argument, member, inner, isPart⟩)
    · exact ⟨arguments, .inl ⟨rfl, rfl⟩⟩
    · exact ⟨inner, .inr ⟨argument, member, isPart⟩⟩

theorem faults_call (function : ScalarFunction) (arguments : List (Expr String)) :
    (call function arguments).faults dialect =
      faultsAll dialect arguments ∪ dialect.missing function := by
  ext fault
  constructor
  · rintro ⟨called, calls, lacks⟩
    rcases calls_call.mp calls with rfl | ⟨argument, member, calls⟩
    · exact .inr lacks
    · exact .inl ⟨argument, member, called, calls, lacks⟩
  · rintro (⟨argument, member, called, calls, lacks⟩ | lacks)
    · exact ⟨called, calls_call.mpr (.inr ⟨argument, member, calls⟩), lacks⟩
    · exact ⟨function, calls_call.mpr (.inl rfl), lacks⟩

theorem faultsAll_nil : faultsAll dialect [] = ∅ := by
  simp [faultsAll]

theorem faultsAll_cons (argument : Expr String) (rest : List (Expr String)) :
    faultsAll dialect (argument :: rest) = argument.faults dialect ∪ faultsAll dialect rest := by
  ext fault
  simp [faultsAll]

/-! ## Expressions -/

theorem typeOf_of_infer {operand : Expr String} {clause : Clause} {value : ValueType}
    (typed : operand.infer schema clause = .ok value) :
    Drafting.typeOf schema operand = pure value.type := by
  rw [Drafting.typeOf, infer_of_agree operand (fun _ _ => rfl) typed]

/-- As many arguments are written as have types. -/
theorem length_of_draftAll {arguments : List (Expr String)} {clause : Clause}
    {types : List ValueType} {draft draft' : SqlDraft} {sqls : List Sql}
    (typed : inferAll schema clause arguments = .ok types)
    (drafted : draftAll dialect style schema arguments draft = .ok (sqls, draft')) :
    sqls.length = types.length := by
  induction arguments generalizing types sqls draft draft' with
  | nil =>
    cases typed
    cases drafted
    rfl
  | cons argument rest ih =>
    simp only [inferAll, bind_eq_ok, pure_eq_ok] at typed
    obtain ⟨_, _, others, othersTyped, rfl⟩ := typed
    simp only [draftAll, Drafting.bind_eq_ok, Drafting.pure_eq_ok, Prod.mk.injEq] at drafted
    obtain ⟨_, _, _, otherSqls, _, othersDrafted, rfl, rfl⟩ := drafted
    rw [List.length_cons, List.length_cons, ih othersTyped othersDrafted]

mutual

/-- An expression that has a type is written, or it calls a function that the engine lacks. -/
theorem throws_draft : ∀ (expr : Expr String) {clause : Clause} {value : ValueType},
    expr.infer schema clause = .ok value →
    Throws (expr.draft dialect style schema) (expr.faults dialect)
  | column name, clause, value, typed => by
    rw [faults_column, draft]
    exact .pure _
  | literal cell, clause, value, typed => by
    rw [faults_literal]
    cases cell with
    | null => cases typed
    | bool | int | float | text => exact Drafting.throws_literal style _
  | cast operand type, clause, value, typed => by
    rw [faults_cast, draft]
    rcases infer_cast typed with ⟨rfl, _⟩ | ⟨source, operandTyped, _⟩
    · rw [faults_literal]
      exact .pure _
    · have notNull : ¬ operand.isNullLiteral = true := by
        intro isNull
        unfold isNullLiteral at isNull
        split at isNull
        · cases operandTyped
        · cases isNull
      rw [if_neg notNull, typeOf_of_infer operandTyped]
      exact .after (.pure source.type) fun read =>
        (operand.throws_draft operandTyped).bindPure (Sql.convert dialect · read type)
  | binary op left right, clause, value, typed => by
    simp only [infer, bind_eq_ok] at typed
    obtain ⟨leftType, leftTyped, rightType, rightTyped, _⟩ := typed
    rw [faults_binary, draft]
    exact (left.throws_draft leftTyped).bind fun leftSql =>
      (right.throws_draft rightTyped).bindPure (Sql.binary dialect op leftSql)
  | unary op operand, clause, value, typed => by
    simp only [infer, bind_eq_ok] at typed
    obtain ⟨operandType, operandTyped, _⟩ := typed
    rw [faults_unary, draft]
    exact (operand.throws_draft operandTyped).bindPure (Sql.unary op)
  | call function arguments, clause, value, typed => by
    obtain ⟨types, argumentsTyped, typed⟩ := infer_call typed
    rw [faults_call, draft]
    refine (throws_draftAll arguments argumentsTyped).bindAnswer fun _ answer given => ?_
    have lacks : Sql.scalar? dialect function answer.1 = none ↔ dialect.Lacks function :=
      Sql.scalar?_eq_none typed (length_of_draftAll argumentsTyped given)
    cases found : Sql.scalar? dialect function answer.1 with
    | none =>
      rw [Dialect.missing_of_lacks (lacks.mp found)]
      exact .throw _
    | some sql =>
      rw [Dialect.missing_of_has fun missing => by rw [lacks.mpr missing] at found; cases found]
      exact .pure sql

/-- Arguments that have types are written, or they call a function that the engine lacks. -/
theorem throws_draftAll : ∀ (arguments : List (Expr String)) {clause : Clause}
    {values : List ValueType}, inferAll schema clause arguments = .ok values →
    Throws (draftAll dialect style schema arguments) (faultsAll dialect arguments)
  | [], clause, values, typed => by
    rw [faultsAll_nil, draftAll]
    exact .pure _
  | argument :: rest, clause, values, typed => by
    simp only [inferAll, bind_eq_ok] at typed
    obtain ⟨firstType, firstTyped, others, othersTyped, _⟩ := typed
    rw [faultsAll_cons, draftAll]
    exact (argument.throws_draft firstTyped).bind fun first =>
      (throws_draftAll rest othersTyped).bindPure (first :: ·)

end

end Expr

variable {dialect : Dialect} {style : LiteralStyle}

/-- An aggregate has the faults of its argument. -/
theorem Aggregate.throws_draft {schema : Schema} {aggregate : Aggregate} {value : ValueType}
    (typed : aggregate.infer schema = .ok value) :
    Throws (aggregate.draft dialect style schema)
      (Expr.faultsAll dialect aggregate.argument.toList) := by
  obtain ⟨function, argument⟩ := aggregate
  cases argument with
  | none =>
    rw [Option.toList_none, Expr.faultsAll_nil]
    exact .pure _
  | some argument =>
    simp only [infer, bind_eq_ok] at typed
    obtain ⟨argumentType, argumentTyped, _⟩ := typed
    rw [Option.toList_some, Expr.faultsAll_cons, Expr.faultsAll_nil, Set.union_empty]
    exact (argument.throws_draft argumentTyped).bindPure (Sql.aggregate dialect function <| some ·)

/-- A window function has the faults of its argument. -/
theorem WindowFunction.throws_draft {schema : Schema} {function : WindowFunction}
    {value : ValueType} (typed : function.infer schema = .ok value) :
    Throws (function.draft dialect style schema)
      (Expr.faultsAll dialect function.argument?.toList) := by
  cases function with
  | rowNumber | rank =>
    rw [argument?, Option.toList_none, Expr.faultsAll_nil]
    exact .pure _
  | lead argument offset | lag argument offset =>
    simp only [infer, bind_eq_ok] at typed
    obtain ⟨argumentType, argumentTyped, _⟩ := typed
    rw [argument?, Option.toList_some, Expr.faultsAll_cons, Expr.faultsAll_nil, Set.union_empty]
    exact (argument.throws_draft argumentTyped).bindPure _

theorem nodup_of_requireDistinct {names : List String} {checked : Unit}
    (distinct : requireDistinct names = .ok checked) : names.Nodup := by
  unfold requireDistinct at distinct
  split at distinct
  · cases distinct
  · exact (nodup_of_firstRepeated? ‹_›).1

namespace Verb

/-- The scalar expressions that an operation computes. -/
def expressions : Verb → List (Expr String)
  | mutate assignments => assignments.map (·.2)
  | filter predicate => [predicate]
  | summarise aggregates => aggregates.flatMap (·.2.argument.toList)
  | window added => added.function.argument?.toList
  | select _ | groupBy _ | orderBy _ | rename _ => []

variable {before after : Signature}

/-- An assigned name is that of a column. -/
theorem mem_names_of_mutate {assignments : List (String × Expr String)}
    (applied : before.apply (.mutate assignments) = .ok after) {name : String}
    (member : name ∈ assignments.map (·.1)) : name ∈ after.schema.names := by
  obtain ⟨_, _, columns, typed, schema, assigned, rfl⟩ := Signature.apply_mutate.mp applied
  rw [← Signature.names_of_assignedColumns typed] at member
  obtain ⟨column, isColumn, rfl⟩ := List.mem_map.mp member
  rw [Schema.names_assign assigned, List.mem_append]
  by_cases known : column.name ∈ before.schema.names
  · exact .inl known
  · refine .inr (List.mem_map.mpr ⟨column, List.mem_filter.mpr ⟨isColumn, ?_⟩, rfl⟩)
    simpa [Schema.position?, Schema.names] using known

/-- The assigned expressions are written for the columns of their names, and no other ones are. -/
theorem mem_faults_assigned {assignments : List (String × Expr String)}
    (applied : before.apply (.mutate assignments) = .ok after) :
    {fault | ∃ column ∈ after.schema.names,
      fault ∈ Expr.faultsAll dialect (assignments.lookup column).toList} =
        Expr.faultsAll dialect (assignments.map (·.2)) := by
  obtain ⟨_, ⟨_, distinct⟩, columns, typed, _⟩ := Signature.apply_mutate.mp applied
  ext fault
  constructor
  · rintro ⟨column, _, expr, found, isFault⟩
    rcases lookup_typed typed column with ⟨_, absent⟩ | ⟨other, _, member, isOther, _⟩
    · rw [absent] at found
      cases found
    · rw [isOther, Option.toList_some, List.mem_singleton] at found
      exact ⟨expr, List.mem_map.mpr ⟨_, found ▸ member, rfl⟩, isFault⟩
  · rintro ⟨expr, member, isFault⟩
    obtain ⟨⟨name, expr⟩, assigned, rfl⟩ := List.mem_map.mp member
    have found := lookup_of_mem (nodup_of_requireDistinct distinct) assigned
    refine ⟨name, mem_names_of_mutate applied (List.mem_map.mpr ⟨_, assigned, rfl⟩), expr, ?_,
      isFault⟩
    rw [found, Option.toList_some, List.mem_singleton]

theorem throws_mutate {assignments : List (String × Expr String)}
    (applied : before.apply (.mutate assignments) = .ok after) (inner : Sql) :
    Throws ((mutate assignments).draft dialect style before after.schema.names inner)
      (Expr.faultsAll dialect (assignments.map (·.2))) := by
  obtain ⟨_, _, columns, typed, _⟩ := Signature.apply_mutate.mp applied
  rw [← mem_faults_assigned applied, ← Set.union_empty {fault | _}]
  refine Throws.bind (.mapM fun column _ => ?_) fun items => Drafting.throws_newAlias.bindPure _
  rcases lookup_typed typed column with ⟨_, absent⟩ | ⟨expr, value, _, found, exprTyped, _⟩
  · rw [absent, Option.toList_none, Expr.faultsAll_nil]
    exact .pure _
  · rw [found, Option.toList_some, Expr.faultsAll_cons, Expr.faultsAll_nil, Set.union_empty]
    exact (expr.throws_draft exprTyped).bindPure (Sql.named · column)

theorem throws_summarise {aggregates : List (String × Aggregate)}
    (applied : before.apply (.summarise aggregates) = .ok after) (columns : List String)
    (inner : Sql) :
    Throws ((summarise aggregates).draft dialect style before columns inner)
      (Expr.faultsAll dialect (aggregates.flatMap (·.2.argument.toList))) := by
  obtain ⟨_, values, _, typed, _⟩ :=
    Signature.columns_of_summarise (Signature.schema_of_summarise applied)
  have split : Expr.faultsAll dialect (aggregates.flatMap (·.2.argument.toList)) =
      {fault | ∃ added ∈ aggregates, fault ∈ Expr.faultsAll dialect added.2.argument.toList} ∪ ∅ := by
    rw [Set.union_empty]
    ext fault
    constructor
    · rintro ⟨expr, member, isFault⟩
      obtain ⟨added, isAdded, isArgument⟩ := List.mem_flatMap.mp member
      exact ⟨added, isAdded, expr, isArgument, isFault⟩
    · rintro ⟨added, isAdded, expr, isArgument, isFault⟩
      exact ⟨expr, List.mem_flatMap.mpr ⟨added, isAdded, isArgument⟩, isFault⟩
  rw [split]
  refine Throws.bind (.mapM fun added member => ?_) fun items =>
    Drafting.throws_newAlias.after fun label => ?_
  · obtain ⟨column, _, type, added, _⟩ := exists_of_mem_left typed member
    exact (Aggregate.throws_draft added).bindPure _
  · split
    · exact .pure _
    · exact .pure _

/-- An operation is written, or one of its expressions has a fault. -/
theorem throws_draft {verb : Verb} (applied : before.apply verb = .ok after) (inner : Sql) :
    Throws (verb.draft dialect style before after.schema.names inner)
      (Expr.faultsAll dialect verb.expressions) := by
  cases verb with
  | groupBy | rename =>
    rw [expressions, Expr.faultsAll_nil]
    exact .pure inner
  | select | orderBy =>
    rw [expressions, Expr.faultsAll_nil]
    exact Drafting.throws_newAlias.bindPure _
  | mutate assignments => exact throws_mutate applied inner
  | filter predicate =>
    obtain ⟨_, ⟨value, typed, _⟩, rfl⟩ := Signature.apply_filter.mp applied
    rw [expressions, Expr.faultsAll_cons, Expr.faultsAll_nil]
    exact (predicate.throws_draft typed).bind fun condition =>
      Drafting.throws_newAlias.bindPure _
  | summarise aggregates => exact throws_summarise applied _ inner
  | window added =>
    obtain ⟨_, _, type, typed, _⟩ := Signature.schema_of_window applied
    rw [expressions, ← Set.union_empty (Expr.faultsAll _ _)]
    exact (added.function.throws_draft typed).bind fun value =>
      Drafting.throws_newAlias.bindPure _

end Verb

/-! ## Chains -/

/-- The fault of a schema that has a column of the name of the position. -/
def Schema.reserved (schema : Schema) : Set CompileError :=
  {fault | positionColumn ∈ schema.names ∧ fault = .reservedColumn positionColumn}

theorem Schema.throws_requireUnreserved (schema : Schema) :
    Throws schema.requireUnreserved schema.reserved := by
  have isThere : (schema.position? positionColumn).isSome ↔ positionColumn ∈ schema.names := by
    simp [position?, names]
  unfold requireUnreserved
  split
  · rename_i found
    have alone : schema.reserved = {.reservedColumn positionColumn} := by
      simp [reserved, isThere.mp found]
    rw [alone]
    exact .throw _
  · rename_i missing
    have none : schema.reserved = ∅ := by
      simp [reserved, mt isThere.mpr missing]
    rw [none]
    exact .pure ()

namespace Chain

variable {chain next first last input right : Chain} {known : Signature} {kind : JoinKind}
  {pairs : List (String × String)} {verb : Verb} {predicate : Expr String}

/-- The scalar expressions of a chain and of the chains that it joins. -/
def expressions : Chain → List (Expr String)
  | source .. => []
  | apply input verb => input.expressions ++ verb.expressions
  | join input right _ _ => input.expressions ++ right.expressions

/-- Does a step of a chain or of a chain that it joins have a column of the name of the position? -/
def NamesPosition (chain : Chain) : Prop :=
  ∃ part ∈ chain.parts, positionColumn ∈ part.schema.names

instance (chain : Chain) : Decidable chain.NamesPosition :=
  inferInstanceAs (Decidable (∃ _ ∈ _, _))

/-- The faults of a chain: a column of the name of the position, and calls of functions that the
engine lacks. -/
def faults (dialect : Dialect) (chain : Chain) : Set CompileError :=
  {fault | chain.NamesPosition ∧ fault = .reservedColumn positionColumn} ∪
    Expr.faultsAll dialect chain.expressions

theorem namesPosition_source {name : String} {schema : Schema} :
    (source name schema).NamesPosition ↔ positionColumn ∈ schema.names := by
  simp [NamesPosition, parts]
  rfl

theorem namesPosition_apply : (apply input verb).NamesPosition ↔
    positionColumn ∈ (apply input verb).schema.names ∨ input.NamesPosition := by
  simp [NamesPosition, parts]

theorem namesPosition_join : (join input right kind pairs).NamesPosition ↔
    positionColumn ∈ (join input right kind pairs).schema.names ∨
      input.NamesPosition ∨ right.NamesPosition := by
  simp [NamesPosition, parts, or_and_right, exists_or]

theorem namesPosition_of_mem (member : positionColumn ∈ chain.schema.names) : chain.NamesPosition :=
  ⟨chain, mem_parts_self chain, member⟩

theorem faults_source (name : String) (schema : Schema) :
    (source name schema).faults dialect = schema.reserved := by
  simp [faults, namesPosition_source, expressions, Expr.faultsAll_nil, Schema.reserved]

theorem faults_apply : (apply input verb).faults dialect = (apply input verb).schema.reserved ∪
    (input.faults dialect ∪ Expr.faultsAll dialect verb.expressions) := by
  ext fault
  simp only [faults, namesPosition_apply, expressions, Expr.faultsAll, Schema.reserved,
    List.mem_append, Set.mem_union, Set.mem_ofPred_eq, or_and_right, exists_or, or_assoc]

theorem faults_join : (join input right kind pairs).faults dialect =
    (join input right kind pairs).schema.reserved ∪
      (input.faults dialect ∪ right.faults dialect) := by
  ext fault
  simp only [faults, namesPosition_join, expressions, Expr.faultsAll, Schema.reserved,
    List.mem_append, Set.mem_union, Set.mem_ofPred_eq, or_and_right, exists_or, or_assoc]
  rw [or_left_comm (a := right.NamesPosition ∧ _)]

/-- The query of a chain is written, or the chain has a fault. -/
theorem throws_draft (built : chain.signature? = .ok known) :
    Throws (chain.draft dialect style) (chain.faults dialect) := by
  induction chain generalizing known with
  | source name schema =>
    rw [faults_source, draft]
    exact (Schema.throws_requireUnreserved schema).bindPure _
  | apply input verb ih =>
    obtain ⟨before, below, applied⟩ := built_below built
    rw [faults_apply, draft, signature_of_built below, schema, signature_of_built built]
    exact (Schema.throws_requireUnreserved _).bind fun _ =>
      (ih below).bind fun inner => Verb.throws_draft applied inner
  | join input right kind pairs ih ih' =>
    obtain ⟨_, builtLeft, _, builtRight, _⟩ := built_sides built
    rw [faults_join, draft]
    exact (Schema.throws_requireUnreserved _).bind fun _ =>
      (ih builtLeft).bind fun leftRows => by
        rw [← Set.union_empty (right.faults dialect)]
        exact (ih' builtRight).bind fun rightRows => Drafting.throws_newAlias.after fun leftAlias =>
          Drafting.throws_newAlias.bindPure _

/-! ### Optimized chains -/

/-- An exchange moves a filter alone, and keeps all expressions. -/
theorem Exchange.mem_expressions (exchange : Exchange chain next) {expr : Expr String} :
    expr ∈ next.expressions ↔ expr ∈ chain.expressions := by
  induction exchange with
  | here _ =>
    unfold swapFilter
    split <;> simp only [expressions, Verb.expressions, List.mem_append, List.mem_singleton]
    · rw [or_right_comm]
    · rw [or_right_comm]
  | onInput _ verb ih => simp only [expressions, List.mem_append, ih]
  | onLeft _ right kind pairs ih => simp only [expressions, List.mem_append, ih]
  | onRight _ input kind pairs ih => simp only [expressions, List.mem_append, ih]

theorem schema_eq_of_built (built : chain.signature? = .ok known)
    (rebuilt : next.signature? = .ok known) : next.schema = chain.schema := by
  rw [schema, schema, signature_of_built built, signature_of_built rebuilt]

/-- A filter keeps the schema. -/
theorem schema_filter (built : (apply input (.filter predicate)).signature? = .ok known) :
    (apply input (.filter predicate)).schema = input.schema := by
  obtain ⟨before, below, applied⟩ := built_below built
  obtain ⟨_, _, rfl⟩ := Signature.apply_filter.mp applied
  exact schema_eq_of_built below built

theorem namesPosition_filter (built : (apply input (.filter predicate)).signature? = .ok known) :
    (apply input (.filter predicate)).NamesPosition ↔ input.NamesPosition := by
  rw [namesPosition_apply, schema_filter built, or_iff_right_iff_imp]
  exact namesPosition_of_mem

/-- An exchange of a filter with a step leaves the names of the columns at all steps. -/
theorem namesPosition_swapFilter (built : chain.signature? = .ok known)
    (rebuilt : chain.swapFilter.signature? = .ok known) :
    chain.swapFilter.NamesPosition ↔ chain.NamesPosition := by
  unfold swapFilter at rebuilt ⊢
  split at rebuilt
  · rename_i below verb predicate
    obtain ⟨_, filtered, _⟩ := built_below rebuilt
    rw [namesPosition_apply, schema_eq_of_built built rebuilt, schema_filter built,
      namesPosition_filter filtered, namesPosition_filter built, namesPosition_apply]
  · rename_i below right kind pairs predicate
    obtain ⟨_, filtered, _⟩ := built_sides rebuilt
    rw [namesPosition_join, schema_eq_of_built built rebuilt, schema_filter built,
      namesPosition_filter filtered, namesPosition_filter built, namesPosition_join]
  · rfl

/-- The steps of a chain have a column of a name exactly if those after an exchange have one. -/
theorem Exchange.namesPosition (exchange : Exchange chain next)
    (built : chain.signature? = .ok known) : next.NamesPosition ↔ chain.NamesPosition := by
  induction exchange generalizing known with
  | here applies => exact namesPosition_swapFilter built ((Exchange.here applies).signature? built)
  | onInput exchange verb ih =>
    have same := schema_eq_of_built built ((Exchange.onInput exchange verb).signature? built)
    obtain ⟨_, below, _⟩ := built_below built
    rw [namesPosition_apply, namesPosition_apply, same]
    exact or_congr_right (ih below)
  | onLeft exchange right kind pairs ih =>
    have same :=
      schema_eq_of_built built ((Exchange.onLeft exchange right kind pairs).signature? built)
    obtain ⟨_, left, _⟩ := built_sides built
    rw [namesPosition_join, namesPosition_join, same]
    exact or_congr_right (or_congr_left (ih left))
  | onRight exchange input kind pairs ih =>
    have same :=
      schema_eq_of_built built ((Exchange.onRight exchange input kind pairs).signature? built)
    obtain ⟨_, _, _, beside, _⟩ := built_sides built
    rw [namesPosition_join, namesPosition_join, same]
    exact or_congr_right (or_congr_right (ih beside))

theorem Exchange.faults_eq (exchange : Exchange chain next) (built : chain.signature? = .ok known) :
    next.faults dialect = chain.faults dialect := by
  ext fault
  simp only [faults, Expr.faultsAll, exchange.namesPosition built, exchange.mem_expressions]

/-- Exchanges leave the faults of a chain. -/
theorem Exchanges.faults_eq {count : Nat} (exchanges : Exchanges first count last)
    (built : first.signature? = .ok known) : last.faults dialect = first.faults dialect := by
  induction exchanges with
  | refl => rfl
  | tail exchanges exchange ih => rw [exchange.faults_eq (exchanges.signature? built), ih]

/-! ### Compiled chains -/

/-- A chain that can be built is compiled, or it has a fault. -/
theorem compile_cases (dialect : Dialect) (built : chain.signature? = .ok known) :
    (chain.faults dialect = ∅ ∧ ∃ query, chain.compile dialect = .ok query) ∨
      ∃ fault ∈ chain.faults dialect, chain.compile dialect = .error fault := by
  obtain ⟨plan, _, _, optimized, exchanges, _, _, _, rebuilt⟩ := optimize_normal built
  have planned : chain.plan = .ok plan := by
    rw [Chain.plan, optimized]
    rfl
  have written : Throws (plan.draftAll dialect .bound chain.schema.names) (plan.faults dialect) :=  by
    rw [← Set.union_empty (plan.faults dialect)]
    exact (plan.throws_draft rebuilt).bind fun inner => Drafting.throws_newAlias.bindPure _
  rw [exchanges.faults_eq built] at written
  rcases written {} with ⟨none, answer, given⟩ | ⟨fault, member, failed⟩
  · have whole : chain.write dialect .bound = .ok answer := by
      rw [write, planned]
      exact given
    refine .inl ⟨none, ?_⟩
    rw [compile, whole]
    exact ⟨_, rfl⟩
  · have whole : chain.write dialect .bound = .error fault := by
      rw [write, planned]
      exact failed
    refine .inr ⟨fault, member, ?_⟩
    rw [compile, whole]
    rfl

theorem mem_faults {fault : CompileError} : fault ∈ chain.faults dialect ↔
    (chain.NamesPosition ∧ fault = .reservedColumn positionColumn) ∨
      ∃ function, dialect.Lacks function ∧ fault = .unsupported dialect function.name ∧
        ∃ expr ∈ chain.expressions, expr.Calls function := by
  rw [faults, Set.mem_union]
  refine or_congr_right ⟨?_, ?_⟩
  · rintro ⟨expr, member, function, calls, lacks, rfl⟩
    exact ⟨function, lacks, rfl, expr, member, calls⟩
  · rintro ⟨function, lacks, rfl, expr, member, calls⟩
    exact ⟨expr, member, function, calls, lacks, rfl⟩

/-- A chain that can be built is compiled exactly if it has no faults. -/
theorem compile_fails_iff_faults (dialect : Dialect) (built : chain.signature? = .ok known) :
    (∃ error, chain.compile dialect = .error error) ↔ ∃ fault, fault ∈ chain.faults dialect := by
  rcases compile_cases dialect built with ⟨none, query, compiled⟩ | ⟨fault, member, failed⟩
  · refine iff_of_false ?_ ?_
    · rintro ⟨error, failed⟩
      cases compiled.symm.trans failed
    · rintro ⟨fault, member⟩
      rw [none] at member
      exact member
  · exact iff_of_true ⟨fault, failed⟩ ⟨fault, member⟩

/-- A chain that can be built can be optimized. For PostgreSQL it is compiled unless one of its steps
has a column of the name of the position, and for SQLite unless it has such a step or calls a root or
a power. No compiler fails for another reason. -/
theorem compile_fails_iff (built : chain.signature? = .ok known) :
    (∃ plan, chain.optimizeChecked = .ok plan ∧ chain.optimize = .ok plan) ∧
    ((∃ error, chain.compile .postgres = .error error) ↔ chain.NamesPosition) ∧
    ((∃ error, chain.compile .sqlite = .error error) ↔
      chain.NamesPosition ∨ ∃ expr ∈ chain.expressions, expr.Calls .sqrt ∨ expr.Calls .pow) ∧
    ∀ dialect error, chain.compile dialect = .error error →
      (error = .reservedColumn positionColumn ∧ chain.NamesPosition) ∨
      (dialect = .sqlite ∧ ∃ function, (function = .sqrt ∨ function = .pow) ∧
        error = .unsupported .sqlite function.name ∧
        ∃ expr ∈ chain.expressions, expr.Calls function) := by
  obtain ⟨plan, _, checked, optimized, _⟩ := optimize_normal built
  refine ⟨⟨plan, checked, optimized⟩, ?_, ?_, fun dialect error failed => ?_⟩
  · rw [compile_fails_iff_faults .postgres built]
    simp [mem_faults, Dialect.Lacks]
  · rw [compile_fails_iff_faults .sqlite built]
    simp only [mem_faults, Dialect.Lacks, true_and]
    constructor
    · rintro ⟨fault, ⟨names, _⟩ | ⟨function, rfl | rfl, _, expr, member, calls⟩⟩
      · exact .inl names
      · exact .inr ⟨expr, member, .inl calls⟩
      · exact .inr ⟨expr, member, .inr calls⟩
    · rintro (names | ⟨expr, member, calls | calls⟩)
      · exact ⟨_, .inl ⟨names, rfl⟩⟩
      · exact ⟨_, .inr ⟨.sqrt, .inl rfl, rfl, expr, member, calls⟩⟩
      · exact ⟨_, .inr ⟨.pow, .inr rfl, rfl, expr, member, calls⟩⟩
  · rcases compile_cases dialect built with ⟨_, query, compiled⟩ | ⟨fault, member, found⟩
    · cases compiled.symm.trans failed
    · obtain rfl : error = fault := Except.error.inj (failed.symm.trans found)
      rcases mem_faults.mp member with ⟨names, isReserved⟩ | ⟨function, ⟨rfl, missing⟩, calls⟩
      · exact .inl ⟨isReserved, names⟩
      · exact .inr ⟨rfl, function, missing, calls⟩

/-- Orders that have a number, each with the root of the weight of its parcels. -/
def rootedOrders : Chain :=
  let orders := source "orders" ⟨[⟨"id", .int, false⟩], [0], []⟩
  let parcels := source "parcels" ⟨[⟨"order", .int, false⟩, ⟨"weight", .float, true⟩], [], []⟩
  let rooted := apply parcels (.mutate [("root", .call .sqrt [.cast (.column "weight") .float])])
  apply (join orders rooted .left [("id", "order")]) (.filter (.unary .isNotNull (.column "id")))

theorem compile_rootedOrders :
    (∃ known, rootedOrders.signature? = .ok known) ∧
    (∃ error, rootedOrders.compile .sqlite = .error error) ∧
    ∃ query, rootedOrders.compile .postgres = .ok query := by
  have built : rootedOrders.signature? = .ok rootedOrders.signature := rfl
  obtain ⟨_, postgres, sqlite, _⟩ := compile_fails_iff built
  refine ⟨⟨_, built⟩, sqlite.mpr (.inr ⟨_, .head _, .inl ⟨_, .head _⟩⟩), ?_⟩
  have fine : ¬ rootedOrders.NamesPosition := by decide
  cases compiled : rootedOrders.compile .postgres with
  | ok query => exact ⟨query, rfl⟩
  | error error => exact absurd (postgres.mp ⟨error, compiled⟩) fine

end Chain

end TablePipeline

import TablePipeline.Proofs.Expr.Soundness
import TablePipeline.Proofs.Sql.Types

/-! # Expressions are drafted as terms of their types

What an expression is compiled to are the symbols of a term. The type of the term is the one that is
inferred for the expression, whatever the view, as far as the view admits the nulls that the
expression casts.
-/

namespace TablePipeline

/-! ## Drafts -/

namespace Drafting

variable {α β : Type} {draft : SqlDraft}

theorem bind_eq_ok {first : Drafting α} {next : α → Drafting β} {result : β × SqlDraft} :
    (first >>= next) draft = .ok result ↔
      ∃ value middle, first draft = .ok (value, middle) ∧ next value middle = .ok result := by
  change (first draft >>= fun (value, middle) => next value middle) = .ok result ↔ _
  rw [TablePipeline.bind_eq_ok, Prod.exists]

theorem pure_eq_ok {value : α} {result : α × SqlDraft} :
    (pure value : Drafting α) draft = .ok result ↔ (value, draft) = result := by
  change (pure (value, draft) : Except CompileError (α × SqlDraft)) = .ok result ↔ _
  exact TablePipeline.pure_eq_ok

theorem throw_ne_ok {error : CompileError} {result : α × SqlDraft} :
    (throw error : Drafting α) draft ≠ .ok result := by
  intro impossible
  cases impossible

/-- A literal is bound to the parameter behind those that are used. -/
theorem literal_bound (cell : Cell) : literal .bound cell draft =
    .ok ([.parameter (draft.parameters.length + 1)],
      { draft with parameters := draft.parameters ++ [cell] }) :=
  rfl

theorem newAlias_eq : newAlias draft =
    .ok (Sql.words ("t" ++ toString (draft.aliases + 1)),
      { draft with aliases := draft.aliases + 1 }) := by
  change Except.ok (Sql.words s!"t{draft.aliases + 1}", _) = _
  simp [toString]

theorem typeOf_eq_ok {schema : Schema} {operand : Expr String} {result : CellType × SqlDraft} :
    typeOf schema operand draft = .ok result ↔
      ∃ value, operand.infer schema .cast = .ok value ∧ (value.type, draft) = result := by
  rw [typeOf]
  cases operand.infer schema .cast with
  | ok value =>
    change (pure value.type : Drafting CellType) draft = .ok result ↔ _
    simp [pure_eq_ok]
  | error error =>
    change (throw (.chain error) : Drafting CellType) draft = .ok result ↔ _
    simp [throw_ne_ok]

end Drafting

/-! ## Nulls -/

namespace Expr

mutual

/-- The types that nulls are cast to in an expression. -/
def nullTypes : Expr String → List CellType
  | column _ | literal _ => []
  | cast operand type => if operand.isNullLiteral then [type] else operand.nullTypes
  | binary _ left right => left.nullTypes ++ right.nullTypes
  | unary _ operand => operand.nullTypes
  | call _ arguments => nullTypesAll arguments

@[inherit_doc nullTypes]
def nullTypesAll : List (Expr String) → List CellType
  | [] => []
  | argument :: rest => argument.nullTypes ++ nullTypesAll rest

end

end Expr

/-! ## Types of drafted terms -/

namespace SqlTerm

/-- Is a type read of a term, wherever the expression is known that the term is drafted for? -/
def Has (nulls : List CellType) (used : List Cell) (schema : Schema) (term : SqlTerm)
    (type : CellType) : Prop :=
  ∀ context : SqlContext, context.Knows nulls used schema →
    term.type context = context.view.see type

variable {nulls nulls' : List CellType} {used used' : List Cell} {schema : Schema}
  {term operand left right : SqlTerm} {type source target : CellType}

theorem Has.mono (has : term.Has nulls used schema type) (less : nulls ⊆ nulls')
    (fewer : used <+: used') : term.Has nulls' used' schema type :=
  fun context knows => has context (knows.mono less fewer)

theorem types_eq_map (context : SqlContext) (terms : List SqlTerm) :
    types context terms = terms.map (SqlTerm.type context) := by
  induction terms with
  | nil => rfl
  | cons first rest ih => rw [types, ih, List.map_cons]

/-- The term of a cast between types. -/
def converted (operand : SqlTerm) (source target : CellType) : SqlTerm :=
  (if source = .bool ∧ target.isNumeric then truth operand else operand).cast target.storage

theorem name_storage (type : CellType) : type.storage.name = Dialect.sqlite.typeName type := by
  cases type <;> rfl

theorem symbols_cast {sql : Sql} (drafted : sql.symbols = operand.symbols) (type : CellType) :
    (sql.cast (Dialect.sqlite.typeName type)).symbols = (operand.cast type.storage).symbols := by
  simp [Sql.cast, symbols, drafted, name_storage]

theorem symbols_converted {sql : Sql} (drafted : sql.symbols = operand.symbols)
    (source target : CellType) :
    (Sql.convert .sqlite sql source target).symbols =
      (operand.converted source target).symbols := by
  have truths : sql.truthNumber.symbols = (truth operand).symbols := by
    simp [Sql.truthNumber, symbols, drafted]
  cases source with
  | bool =>
    cases target with
    | int | float => exact symbols_cast truths _
    | bool | text => exact symbols_cast drafted _
  | int | float | text => cases target <;> exact symbols_cast drafted _

theorem has_converted (has : operand.Has nulls used schema source)
    (casts : source.castsTo target = true) :
    (operand.converted source target).Has nulls used schema target := by
  intro context knows
  have operandType := has context knows
  cases target with
  | float | text => rfl
  | int =>
    cases source with
    | bool => rfl
    | int | float =>
      change (if operand.type context = .bool then CellType.bool else .int) = _
      rw [operandType]
      rfl
    | text => cases casts
  | bool =>
    cases source with
    | bool =>
      change (if operand.type context = .bool then CellType.bool else .int) = _
      rw [operandType, SqlView.see]
      cases context.view.exact <;> rfl
    | int | float | text => cases casts

/-- The term of a null that is cast to a type. -/
theorem has_nullCast (type : CellType) :
    ((atom .null).cast type.storage).Has [type] used schema type := by
  intro context knows
  have admitted := knows.admits type (.head _)
  cases type with
  | float | text => rfl
  | int =>
    change (if context.view.null = .bool then CellType.bool else .int) = _
    rw [← admitted rfl]
    rfl
  | bool =>
    change (if context.view.null = .bool then CellType.bool else .int) = _
    rw [← admitted rfl, SqlView.see]
    cases context.view.exact <;> rfl

/-! ### Operators -/

/-- The term of an operator between two operands. -/
def ofBinary (op : BinaryOp) (left right : SqlTerm) : SqlTerm :=
  binary op (if op = .arithmetic .divide then left.cast .real else left) right

theorem symbols_ofBinary (op : BinaryOp) {sql sql' : Sql} (drafted : sql.symbols = left.symbols)
    (drafted' : sql'.symbols = right.symbols) :
    (Sql.binary .sqlite op sql sql').symbols = (ofBinary op left right).symbols := by
  have plain (word closing : String) : (Sql.words "(" ++ sql ++ Sql.words word ++ sql' ++
      Sql.words closing).symbols = wordSymbols "(" ++ (left.symbols ++
        (wordSymbols word ++ (right.symbols ++ wordSymbols closing))) := by
    simp [drafted, drafted']
  cases op with
  | arithmetic op =>
    cases op with
    | divide =>
      rw [Sql.binary, Sql.divide, ofBinary, if_pos rfl, symbols]
      simp [symbols_cast drafted .float, drafted', BinaryOp.infix_, BinaryOp.closing]
      rfl
    | add | subtract | multiply => exact plain _ _
  | comparison op | logical op => exact plain _ _

theorem has_ofBinary {op : BinaryOp} {text : String} {leftType rightType value : ValueType}
    (inferred : op.infer text leftType rightType = .ok value)
    (has : left.Has nulls used schema leftType.type)
    (has' : right.Has nulls used schema rightType.type) :
    (ofBinary op left right).Has nulls used schema value.type := by
  intro context knows
  have leftHas := has context knows
  have rightHas := has' context knows
  cases op with
  | arithmetic op =>
    obtain ⟨leftNumeric, rightNumeric, rfl⟩ := BinaryOp.infer_arithmetic.mp inferred
    split
    · rename_i divides
      rw [divides]
      rfl
    · rename_i divides
      have other : BinaryOp.arithmetic op ≠ .arithmetic .divide := fun same =>
        divides (BinaryOp.arithmetic.inj same)
      rw [ofBinary, if_neg other, SqlTerm.type, leftHas, rightHas]
      revert leftNumeric rightNumeric
      cases leftType.type <;> cases rightType.type <;>
        simp [CellType.isNumeric, SqlView.see, divides]
  | comparison op =>
    obtain ⟨_, rfl⟩ := BinaryOp.infer_comparison.mp inferred
    rfl
  | logical op =>
    obtain ⟨_, _, rfl⟩ := BinaryOp.infer_logical.mp inferred
    rfl

theorem symbols_unary (op : UnaryOp) {sql : Sql} (drafted : sql.symbols = operand.symbols) :
    (Sql.unary op sql).symbols = (unary op operand).symbols := by
  cases op <;> simp [Sql.unary, symbols, drafted]

theorem has_unary {op : UnaryOp} {text : String} {operandType value : ValueType}
    (inferred : op.infer text operandType = .ok value)
    (has : operand.Has nulls used schema operandType.type) :
    (unary op operand).Has nulls used schema value.type := by
  intro context knows
  cases op with
  | negate =>
    obtain ⟨_, rfl⟩ := ValueType.numeric_eq_ok.mp inferred
    exact has context knows
  | not =>
    obtain ⟨isBool, rfl⟩ := ValueType.expect_eq_ok.mp inferred
    rw [isBool]
    rfl
  | isNull | isNotNull =>
    cases inferred
    rfl

/-! ### Functions -/

theorem symbols_call (function : SqlFunction) {sqls : List Sql} {terms : List SqlTerm}
    (drafted : sqls.map Sql.symbols = terms.map symbols) :
    (Sql.call function.name sqls).symbols = (call function terms).symbols := by
  rw [symbols, symbolsAll_eq_map, ← drafted]
  simp [Sql.call, commaSymbols]

/-- The term of rounding to decimal digits. -/
def ofRound (digits : Int32) (operand : SqlTerm) : SqlTerm :=
  if 0 ≤ digits then call .round [operand, atom (.ofInt digits.toInt)]
  else
    let scale := SqlWord.ofFloat (Number.tenPower (-digits))
    binary (.arithmetic .multiply) (rounded operand scale) (atom scale)

theorem symbols_ofRound (digits : Int32) {sql : Sql} (drafted : sql.symbols = operand.symbols) :
    (Sql.round .sqlite digits sql).symbols = (ofRound digits operand).symbols := by
  rw [Sql.round, ofRound]
  split
  · refine symbols_call .round ?_
    simp [drafted, symbols, SqlWord.ofInt]
  · simp [Sql.call, Sql.separated, symbols, drafted, SqlWord.ofFloat, BinaryOp.infix_,
      BinaryOp.closing, BinaryOp.symbol]

theorem type_ofRound (digits : Int32) (operand : SqlTerm) (context : SqlContext) :
    (ofRound digits operand).type context = .float := by
  rw [ofRound]
  split
  · rfl
  · exact if_pos (.inr (.inl rfl))

/-- What is read of the common type of some types is the common type of what is read. -/
theorem foldl_of_coalesceType {view : SqlView} {text : String} {type result : CellType}
    {rest : List ValueType} (common : coalesceType text type rest = .ok result) :
    (rest.map (view.see ·.type)).foldl (fun type next => if next = type then type else .float)
      (view.see type) = view.see result := by
  induction rest generalizing type with
  | nil =>
    cases common
    rfl
  | cons next rest ih =>
    rw [List.map_cons, List.foldl_cons]
    rcases coalesceType_cons common with ⟨same, common⟩ | ⟨wider, different, isWider, common⟩
    · rw [if_pos (by rw [same])]
      exact ih common
    · obtain ⟨apart, rfl⟩ := SqlView.see_of_widest? view different isWider
      rw [if_neg apart]
      exact ih common

/-- Arguments have the types that are inferred for them. -/
def HasAll (nulls : List CellType) (used : List Cell) (schema : Schema) (terms : List SqlTerm)
    (values : List ValueType) : Prop :=
  List.Forall₂ (fun term value => SqlTerm.Has nulls used schema term value.type) terms values

theorem HasAll.types_eq {terms : List SqlTerm} {values : List ValueType}
    (has : HasAll nulls used schema terms values) {context : SqlContext}
    (knows : context.Knows nulls used schema) :
    types context terms = values.map (context.view.see ·.type) := by
  rw [types_eq_map]
  induction has with
  | nil => rfl
  | cons first _ ih => rw [List.map_cons, List.map_cons, first context knows, ih]

/-- A function that SQLite has is drafted as a term of its type. -/
theorem exists_scalar {function : ScalarFunction} {text : String} {values : List ValueType}
    {value : ValueType} (inferred : function.infer text values = .ok value) {sqls : List Sql}
    {sql : Sql} (found : Sql.scalar? .sqlite function sqls = some sql) {terms : List SqlTerm}
    (drafted : sqls.map Sql.symbols = terms.map symbols)
    (has : HasAll nulls used schema terms values) :
    ∃ term : SqlTerm, sql.symbols = term.symbols ∧ term.Has nulls used schema value.type := by
  have single {operandSql : Sql} (one : sqls = [operandSql]) : ∃ operand operandType,
      terms = [operand] ∧ values = [operandType] ∧ operandSql.symbols = operand.symbols ∧
        operand.Has nulls used schema operandType.type := by
    subst one
    obtain ⟨operand, rfl⟩ : ∃ operand, terms = [operand] :=
      List.length_eq_one_iff.mp (by simpa using (congrArg List.length drafted).symm)
    obtain ⟨operandType, _, operandHas, ⟨⟩, rfl⟩ := List.forall₂_cons_left_iff.mp has
    exact ⟨operand, operandType, rfl, rfl, (List.cons.inj drafted).1, operandHas⟩
  unfold Sql.scalar? at found
  split at found
  · rename_i digits operandSql
    cases found
    obtain ⟨operand, operandType, rfl, rfl, operandDrafted, operandHas⟩ := single rfl
    simp only [ScalarFunction.infer, bind_eq_ok, pure_eq_ok] at inferred
    obtain ⟨_, _, rfl⟩ := inferred
    exact ⟨_, symbols_ofRound digits operandDrafted, fun context _ => type_ofRound _ _ context⟩
  · cases found
    obtain ⟨operand, operandType, rfl, rfl, operandDrafted, operandHas⟩ := single rfl
    obtain ⟨_, rfl⟩ := ValueType.numeric_eq_ok.mp inferred
    exact ⟨call .abs [operand], symbols_call .abs (by simp [operandDrafted]), operandHas⟩
  · cases found
    obtain ⟨operand, operandType, rfl, rfl, operandDrafted, operandHas⟩ := single rfl
    obtain ⟨isText, rfl⟩ := ValueType.expect_eq_ok.mp inferred
    refine ⟨call .trim [operand], symbols_call .trim (by simp [operandDrafted]), ?_⟩
    rw [isText]
    exact fun _ _ => rfl
  · rename_i first rest
    cases found
    refine ⟨_, symbols_call .coalesce drafted, fun context knows => ?_⟩
    change commonType (types context terms) = _
    rw [has.types_eq knows]
    cases values with
    | nil => cases inferred
    | cons firstType others =>
      simp only [ScalarFunction.infer, bind_eq_ok, pure_eq_ok] at inferred
      obtain ⟨type, common, rfl⟩ := inferred
      exact foldl_of_coalesceType common
  all_goals cases found

end SqlTerm

/-! ## Drafted expressions -/

/-- Is a part of a query the symbols of a term of a type? -/
def DraftsTerm (nulls : List CellType) (used : List Cell) (schema : Schema) (sql : Sql)
    (type : CellType) : Prop :=
  ∃ term : SqlTerm, sql.symbols = term.symbols ∧ term.Has nulls used schema type

namespace Expr

variable {schema : Schema}

mutual

/-- An expression is drafted as a term of its type, and uses parameters behind those in use. -/
theorem drafted : ∀ (expr : Expr String) {clause : Clause} {value : ValueType}
    {draft draft' : SqlDraft} {sql : Sql}, expr.infer schema clause = .ok value →
    expr.draft .sqlite .bound schema draft = .ok (sql, draft') →
    draft.parameters <+: draft'.parameters ∧
      DraftsTerm expr.nullTypes draft'.parameters schema sql value.type
  | column name, clause, value, draft, draft', sql, inferred, drafted => by
    simp only [infer, bind_eq_ok, Schema.resolveColumn_eq_ok, pure_eq_ok] at inferred
    obtain ⟨column, known, rfl⟩ := inferred
    simp only [Expr.draft, Drafting.pure_eq_ok, Prod.mk.injEq] at drafted
    obtain ⟨rfl, rfl⟩ := drafted
    exact ⟨List.prefix_rfl, .column ⟨none, name⟩, rfl, fun context knows => knows.columns known⟩
  | literal cell, clause, value, draft, draft', sql, inferred, drafted => by
    obtain ⟨type, isType, rfl⟩ := infer_literal inferred
    have bound : Drafting.literal .bound cell draft = .ok (sql, draft') := by
      cases cell with
      | null => cases isType
      | bool | int | float | text => exact drafted
    rw [Drafting.literal_bound] at bound
    cases bound
    refine ⟨List.prefix_append _ _, .parameter _, rfl, fun context knows => ?_⟩
    have isBound : context.parameters[draft.parameters.length]? = some cell := by
      obtain ⟨more, parameters⟩ := knows.parameters
      simp [← parameters]
    simp [SqlTerm.type, isBound, isType]
  | cast operand type, clause, value, draft, draft', sql, inferred, drafted => by
    rw [infer] at inferred
    rw [Expr.draft] at drafted
    rw [nullTypes]
    split at inferred
    · rename_i null
      rw [if_pos null] at drafted ⊢
      simp only [Drafting.pure_eq_ok, Prod.mk.injEq] at drafted
      obtain ⟨rfl, rfl⟩ := drafted
      cases inferred
      exact ⟨List.prefix_rfl, _, SqlTerm.symbols_cast rfl type, SqlTerm.has_nullCast type⟩
    · rename_i notNull
      rw [if_neg notNull] at drafted ⊢
      simp only [bind_eq_ok] at inferred
      obtain ⟨source, typed, inferred⟩ := inferred
      split at inferred
      · rename_i casts
        cases inferred
        simp only [Drafting.bind_eq_ok, Drafting.typeOf_eq_ok, Drafting.pure_eq_ok,
          Prod.mk.injEq] at drafted
        obtain ⟨_, _, ⟨source', typed', rfl, rfl⟩, operandSql, _, operandDrafted, rfl, rfl⟩ :=
          drafted
        obtain rfl : source' = source := Except.ok.inj (typed'.symm.trans
          (infer_of_agree operand (fun _ _ => rfl) typed))
        obtain ⟨grown, term, symbols, has⟩ := operand.drafted typed operandDrafted
        exact ⟨grown, _, SqlTerm.symbols_converted symbols _ _, SqlTerm.has_converted has casts⟩
      · cases inferred
  | binary op left right, clause, value, draft, draft', sql, inferred, drafted => by
    simp only [infer, bind_eq_ok] at inferred
    obtain ⟨leftType, leftTyped, rightType, rightTyped, inferred⟩ := inferred
    simp only [Expr.draft, Drafting.bind_eq_ok, Drafting.pure_eq_ok, Prod.mk.injEq] at drafted
    obtain ⟨leftSql, _, leftDrafted, rightSql, _, rightDrafted, rfl, rfl⟩ := drafted
    obtain ⟨grown, leftTerm, leftSymbols, leftHas⟩ := left.drafted leftTyped leftDrafted
    obtain ⟨grown', rightTerm, rightSymbols, rightHas⟩ := right.drafted rightTyped rightDrafted
    refine ⟨grown.trans grown', _, SqlTerm.symbols_ofBinary op leftSymbols rightSymbols,
      SqlTerm.has_ofBinary inferred ?_ ?_⟩
    · exact leftHas.mono (List.subset_append_left _ _) grown'
    · exact rightHas.mono (List.subset_append_right _ _) List.prefix_rfl
  | unary op operand, clause, value, draft, draft', sql, inferred, drafted => by
    simp only [infer, bind_eq_ok] at inferred
    obtain ⟨operandType, typed, inferred⟩ := inferred
    simp only [Expr.draft, Drafting.bind_eq_ok, Drafting.pure_eq_ok, Prod.mk.injEq] at drafted
    obtain ⟨operandSql, _, operandDrafted, rfl, rfl⟩ := drafted
    obtain ⟨grown, term, symbols, has⟩ := operand.drafted typed operandDrafted
    exact ⟨grown, _, SqlTerm.symbols_unary op symbols, SqlTerm.has_unary inferred has⟩
  | call function arguments, clause, value, draft, draft', sql, inferred, drafted => by
    obtain ⟨values, typed, inferred⟩ := infer_call inferred
    simp only [Expr.draft, Drafting.bind_eq_ok] at drafted
    obtain ⟨sqls, _, argumentsDrafted, drafted⟩ := drafted
    obtain ⟨grown, terms, symbols, has⟩ := draftedAll arguments typed argumentsDrafted
    cases found : Sql.scalar? .sqlite function sqls with
    | some sql =>
      rw [found] at drafted
      cases drafted
      exact ⟨grown, SqlTerm.exists_scalar inferred found symbols has⟩
    | none =>
      rw [found] at drafted
      exact absurd drafted Drafting.throw_ne_ok

/-- Arguments are drafted as terms of their types. -/
theorem draftedAll : ∀ (arguments : List (Expr String)) {clause : Clause} {values : List ValueType}
    {draft draft' : SqlDraft} {sqls : List Sql}, inferAll schema clause arguments = .ok values →
    draftAll .sqlite .bound schema arguments draft = .ok (sqls, draft') →
    draft.parameters <+: draft'.parameters ∧
      ∃ terms : List SqlTerm, sqls.map Sql.symbols = terms.map SqlTerm.symbols ∧
        SqlTerm.HasAll (nullTypesAll arguments) draft'.parameters schema terms values
  | [], clause, values, draft, draft', sqls, inferred, drafted => by
    cases inferred
    cases drafted
    exact ⟨List.prefix_rfl, [], rfl, .nil⟩
  | argument :: rest, clause, values, draft, draft', sqls, inferred, drafted => by
    simp only [inferAll, bind_eq_ok, pure_eq_ok] at inferred
    obtain ⟨firstType, firstTyped, others, othersTyped, rfl⟩ := inferred
    simp only [draftAll, Drafting.bind_eq_ok, Drafting.pure_eq_ok, Prod.mk.injEq] at drafted
    obtain ⟨firstSql, _, firstDrafted, otherSqls, _, othersDrafted, rfl, rfl⟩ := drafted
    obtain ⟨grown, first, firstSymbols, firstHas⟩ := argument.drafted firstTyped firstDrafted
    obtain ⟨grown', terms, symbols, has⟩ := draftedAll rest othersTyped othersDrafted
    refine ⟨grown.trans grown', first :: terms, ?_, .cons ?_ ?_⟩
    · rw [List.map_cons, List.map_cons, firstSymbols, symbols]
    · exact firstHas.mono (List.subset_append_left _ _) grown'
    · exact has.imp fun _ _ has => has.mono (List.subset_append_right _ _) List.prefix_rfl

end

end Expr

/-! ## Drafted aggregates -/

/-- The function that an aggregate calls. -/
def AggregateFunction.call : AggregateFunction → SqlFunction
  | count | countRows => .count
  | sum => .sum
  | mean => .avg
  | min => .min
  | max => .max

namespace Aggregate

/-- The types that nulls are cast to in an aggregate. -/
def nullTypes (aggregate : Aggregate) : List CellType :=
  (aggregate.argument.map Expr.nullTypes).getD []

theorem symbols_call {sql : Sql} {term : SqlTerm} (drafted : sql.symbols = term.symbols)
    (function : AggregateFunction) : (Sql.call function.call.name [sql]).symbols =
      (SqlTerm.call function.call [term]).symbols :=
  SqlTerm.symbols_call function.call (by simp [drafted])

variable {schema : Schema}

/-- An aggregate is drafted as a term of its type, and uses parameters behind those in use. -/
theorem drafted {aggregate : Aggregate} {value : ValueType} {draft draft' : SqlDraft} {sql : Sql}
    (inferred : aggregate.infer schema = .ok value)
    (drafted : aggregate.draft .sqlite .bound schema draft = .ok (sql, draft')) :
    draft.parameters <+: draft'.parameters ∧
      DraftsTerm aggregate.nullTypes draft'.parameters schema sql value.type := by
  obtain ⟨function, argument⟩ := aggregate
  cases argument with
  | none =>
    simp only [infer] at inferred
    split at inferred
    · rename_i isCount
      obtain rfl : function = .countRows := isCount
      cases inferred
      cases drafted
      have star : (Sql.words "*").symbols = (SqlTerm.atom .star).symbols := rfl
      exact ⟨List.prefix_rfl, _, symbols_call star .countRows, fun _ _ => rfl⟩
    · cases inferred
  | some argument =>
    simp only [infer, bind_eq_ok] at inferred
    obtain ⟨argumentType, typed, inferred⟩ := inferred
    simp only [Aggregate.draft, Drafting.bind_eq_ok, Drafting.pure_eq_ok, Prod.mk.injEq] at drafted
    obtain ⟨argumentSql, _, argumentDrafted, rfl, rfl⟩ := drafted
    obtain ⟨grown, term, symbols, has⟩ := argument.drafted typed argumentDrafted
    refine ⟨grown, ?_⟩
    cases function with
    | count | countRows =>
      cases inferred
      exact ⟨_, symbols_call symbols .count, fun _ _ => rfl⟩
    | sum =>
      simp only [bind_eq_ok, ValueType.numeric_eq_ok, pure_eq_ok] at inferred
      obtain ⟨_, ⟨_, rfl⟩, rfl⟩ := inferred
      exact ⟨.call .sum [term], symbols_call symbols .sum, has⟩
    | mean =>
      simp only [bind_eq_ok, ValueType.numeric_eq_ok, pure_eq_ok] at inferred
      obtain ⟨_, ⟨_, rfl⟩, rfl⟩ := inferred
      exact ⟨_, symbols_call symbols .mean, fun _ _ => rfl⟩
    | min =>
      simp only [throw_bind, guard_eq_ok, pure_eq_ok] at inferred
      obtain ⟨_, rfl⟩ := inferred
      exact ⟨.call .min [term], symbols_call symbols .min, has⟩
    | max =>
      simp only [throw_bind, guard_eq_ok, pure_eq_ok] at inferred
      obtain ⟨_, rfl⟩ := inferred
      exact ⟨.call .max [term], symbols_call symbols .max, has⟩

end Aggregate

/-! ## Drafted windows -/

theorem Sql.symbols_names (columns : List String) :
    (names columns).symbols = commaSymbols (columns.map ([.name ·])) := by
  rw [names, symbols_separated, List.map_map, commaSymbols]
  rfl

theorem Sql.symbols_orderTerm (key : OrderKey) :
    (orderTerm key).symbols = (OrderTerm.key key).symbols := by
  simp [orderTerm, OrderTerm.symbols]

/-- The window of a window function. Functions that do not keep ties end its order with the
position. -/
def Window.sqlWindow (window : Window) : SqlWindow where
  partition := window.partitionBy
  order := window.orderBy.map .key ++
    if window.function.keepsTies then [] else [.position ⟨none, positionColumn⟩]

theorem Window.symbols_clause (window : Window) : (Sql.windowClause window).symbols =
    wordSymbols " OVER (" ++ (window.sqlWindow.symbols ++ wordSymbols ")") := by
  have order : (window.orderBy.map Sql.orderTerm ++
      if window.function.keepsTies then [] else [Sql.position]).map Sql.symbols =
        window.sqlWindow.order.map OrderTerm.symbols := by
    rw [sqlWindow, List.map_append, List.map_append, List.map_map, List.map_map]
    congr 1
    · exact List.map_congr_left fun key _ => Sql.symbols_orderTerm key
    · split <;> simp [OrderTerm.symbols, SqlReference.symbols, SqlReference.prefix_, Sql.position]
  have partition : window.sqlWindow.partition = window.partitionBy := rfl
  rw [Sql.windowClause, SqlWindow.symbols, partition]
  split <;> simp [order, commaSymbols, Sql.symbols_names]

namespace WindowFunction

/-- The types that nulls are cast to in a window function. -/
def nullTypes (function : WindowFunction) : List CellType :=
  (function.argument?.map Expr.nullTypes).getD []

variable {schema : Schema}

/-- A window function is drafted as the call of a function whose value has its type. -/
theorem exists_call {function : WindowFunction} {value : ValueType} {draft draft' : SqlDraft}
    {sql : Sql} (inferred : function.infer schema = .ok value)
    (drafted : function.draft .sqlite .bound schema draft = .ok (sql, draft')) :
    draft.parameters <+: draft'.parameters ∧
    ∃ (called : SqlWindowFunction) (arguments : List SqlTerm),
      sql.symbols = wordSymbols called.name ++ (wordSymbols "(" ++
        (commaSymbols (SqlTerm.symbolsAll arguments) ++ wordSymbols ")")) ∧
      ∀ window, (SqlTerm.windowed called arguments window).Has function.nullTypes draft'.parameters
        schema value.type := by
  have shifted (called : SqlWindowFunction) {sql : Sql} {term : SqlTerm} (offset : Nat)
      (drafted : sql.symbols = term.symbols) :
      (Sql.call called.name [sql, Sql.words (toString offset)]).symbols =
        wordSymbols called.name ++ (wordSymbols "(" ++
          (commaSymbols (SqlTerm.symbolsAll [term, .atom (.ofInt offset)]) ++
            wordSymbols ")")) := by
    simp [Sql.call, SqlTerm.symbolsAll, SqlTerm.symbols, drafted, commaSymbols, SqlWord.ofInt]
    rfl
  cases function with
  | rowNumber =>
    cases inferred
    cases drafted
    exact ⟨List.prefix_rfl, .rowNumber, [], rfl, fun _ _ _ => rfl⟩
  | rank =>
    cases inferred
    cases drafted
    exact ⟨List.prefix_rfl, .rank, [], rfl, fun _ _ _ => rfl⟩
  | lead argument offset =>
    simp only [infer, bind_eq_ok, pure_eq_ok] at inferred
    obtain ⟨argumentType, typed, rfl⟩ := inferred
    simp only [WindowFunction.draft, Drafting.bind_eq_ok, Drafting.pure_eq_ok, Prod.mk.injEq]
      at drafted
    obtain ⟨argumentSql, _, argumentDrafted, rfl, rfl⟩ := drafted
    obtain ⟨grown, term, symbols, has⟩ := argument.drafted typed argumentDrafted
    exact ⟨grown, .lead, [term, .atom (.ofInt offset.toNat)], shifted .lead offset.toNat symbols,
      fun _ => has⟩
  | lag argument offset =>
    simp only [infer, bind_eq_ok, pure_eq_ok] at inferred
    obtain ⟨argumentType, typed, rfl⟩ := inferred
    simp only [WindowFunction.draft, Drafting.bind_eq_ok, Drafting.pure_eq_ok, Prod.mk.injEq]
      at drafted
    obtain ⟨argumentSql, _, argumentDrafted, rfl, rfl⟩ := drafted
    obtain ⟨grown, term, symbols, has⟩ := argument.drafted typed argumentDrafted
    exact ⟨grown, .lag, [term, .atom (.ofInt offset.toNat)], shifted .lag offset.toNat symbols,
      fun _ => has⟩

end WindowFunction

/-- A window function with its window is drafted as a term of its type, and uses parameters behind
those in use. -/
theorem Window.drafted {window : Window} {schema : Schema} {value : ValueType}
    {draft draft' : SqlDraft} {sql : Sql} (inferred : window.function.infer schema = .ok value)
    (drafted : window.function.draft .sqlite .bound schema draft = .ok (sql, draft')) :
    draft.parameters <+: draft'.parameters ∧
      DraftsTerm window.function.nullTypes draft'.parameters schema (sql ++ Sql.windowClause window)
        value.type := by
  obtain ⟨grown, called, arguments, symbols, has⟩ := WindowFunction.exists_call inferred drafted
  refine ⟨grown, .windowed called arguments window.sqlWindow, ?_, has window.sqlWindow⟩
  have words : ") OVER (" = ")" ++ " OVER (" := rfl
  rw [Sql.symbols_append, symbols, symbols_clause, SqlTerm.symbols, words, wordSymbols_append]
  simp only [List.append_assoc]

end TablePipeline

import Mathlib.Order.Interval.Set.Basic
import TablePipeline.Proofs.Chain.RenamedPlans
import TablePipeline.Proofs.Chain.Windows
import TablePipeline.Proofs.Sql.Counterparts
import TablePipeline.Proofs.Sql.Drafts

/-! # Drafts side by side

A chain that is drafted with its literals bound to parameters is followed step by step by the
renamed chain, whose literals are bound or stand in place. Both use the same labels, and what the
second one writes is the counterpart of what the first one does, for all parameters that are bound in
the end. The parameters that a part of a query uses are exactly those that are bound while it is
drafted.
-/

namespace TablePipeline

/-! ## Following -/

/-- Is the second draft as far as the first one? -/
structure SqlDraft.Beside (style : LiteralStyle) (draft draft' : SqlDraft) : Prop where
  aliases : draft'.aliases = draft.aliases
  parameters : style = .bound → draft'.parameters = draft.parameters

namespace Drafting

variable {α β γ δ ι κ : Type} {style : LiteralStyle}
  {related : List Cell → Set Nat → α → β → Prop} {further : List Cell → Set Nat → γ → δ → Prop}
  {first : Drafting α} {first' : Drafting β}

/-- Does the second action succeed whenever the first one does? Their results are then related for
all parameters that the first one leads to, and for the numbers that it binds. -/
def Follows (style : LiteralStyle) (related : List Cell → Set Nat → α → β → Prop)
    (first : Drafting α) (first' : Drafting β) : Prop :=
  ∀ ⦃draft draft' : SqlDraft⦄ ⦃result : α⦄ ⦃next : SqlDraft⦄, draft.Beside style draft' →
    first draft = .ok (result, next) → draft.parameters <+: next.parameters ∧
      ∃ result' next', first' draft' = .ok (result', next') ∧ next.Beside style next' ∧
        ∀ final, next.parameters <+: final → related final
          (Set.Ioc draft.parameters.length next.parameters.length) result result'

namespace Follows

theorem pure {result : α} {result' : β} (holds : ∀ final, related final ∅ result result') :
    Follows style related (pure result) (pure result') := by
  intro draft draft' _ _ beside drafted
  cases pure_eq_ok.mp drafted
  refine ⟨List.prefix_rfl, result', draft', rfl, beside, fun final _ => ?_⟩
  rw [Set.Ioc_self]
  exact holds final

theorem throw (error : CompileError) (second : Drafting β) :
    Follows style related (throw error : Drafting α) second :=
  fun _ _ _ _ _ drafted => absurd drafted throw_ne_ok

/-- What is bound first comes before what is bound then. -/
theorem bind {next : α → Drafting γ} {next' : β → Drafting δ}
    (follows : Follows style related first first')
    (others : ∀ result result', (∃ final numbers, related final numbers result result') →
      Follows style (fun final more result₂ result₂' =>
        ∀ numbers, related final numbers result result' →
          further final (numbers ∪ more) result₂ result₂') (next result) (next' result')) :
    Follows style further (first >>= next) (first' >>= next') := by
  intro draft draft' result last beside drafted
  obtain ⟨value, middle, here, rest⟩ := bind_eq_ok.mp drafted
  obtain ⟨grown, value', middle', here', between, holds⟩ := follows beside here
  obtain ⟨grown', result', last', rest', after, holds'⟩ :=
    others value value' ⟨_, _, holds _ List.prefix_rfl⟩ between rest
  refine ⟨grown.trans grown', result', last', bind_eq_ok.mpr ⟨value', middle', here', rest'⟩, after,
    fun final leads => ?_⟩
  rw [← Set.Ioc_union_Ioc_eq_Ioc grown.length_le grown'.length_le]
  exact holds' final leads _ (holds final (grown'.trans leads))

/-- What is put together from the result of an action. -/
theorem bindPure {change : α → γ} {change' : β → δ} (follows : Follows style related first first')
    (changes : ∀ final numbers result result', related final numbers result result' →
      further final numbers (change result) (change' result')) :
    Follows style further (first >>= fun result => Pure.pure (change result))
      (first' >>= fun result' => Pure.pure (change' result')) := by
  refine follows.bind fun result result' _ => pure fun final numbers holds => ?_
  rw [Set.union_empty]
  exact changes final numbers result result' holds

theorem imp (follows : Follows style related first first')
    {entailed : List Cell → Set Nat → α → β → Prop}
    (implies : ∀ final numbers result result', related final numbers result result' →
      entailed final numbers result result') : Follows style entailed first first' := by
  intro draft draft' result next beside drafted
  obtain ⟨grown, result', next', drafted', after, holds⟩ := follows beside drafted
  exact ⟨grown, result', next', drafted', after, fun final leads =>
    implies _ _ _ _ (holds final leads)⟩

variable {rename : String → String}

/-- A list of parts is drafted one after the other. -/
theorem mapM {items : List ι} {renamed : ι → κ} {f : ι → Drafting Sql} {f' : κ → Drafting Sql}
    (each : ∀ item ∈ items,
      Follows style (Sql.Counterpart rename style) (f item) (f' (renamed item))) :
    Follows style (Sql.Counterparts rename style) (items.mapM f) ((items.map renamed).mapM f') := by
  induction items with
  | nil => exact pure fun _ => .nil
  | cons item items ih =>
    obtain ⟨here, behind⟩ := List.forall_mem_cons.mp each
    rw [List.map_cons, List.mapM_cons, List.mapM_cons]
    refine here.bind fun _ _ _ => (ih behind).bindPure fun _ _ _ _ more numbers first => ?_
    exact .cons first more

end Follows

/-! ## Labels and literals -/

/-- Is the label the same in both queries? -/
def SameLabel (_ : List Cell) (numbers : Set Nat) (label label' : Sql) : Prop :=
  numbers = ∅ ∧ label' = label ∧ ∃ text, label = Sql.words text ∧ Wording text

theorem newAlias_follows (style : LiteralStyle) : Follows style SameLabel newAlias newAlias := by
  intro draft draft' label next beside drafted
  rw [newAlias_eq] at drafted
  cases drafted
  have named : Wording ("t" ++ toString (draft.aliases + 1)) :=
    Wording.append (by decide) (wording_natural _)
  refine ⟨List.prefix_rfl, _, _, newAlias_eq, ⟨congrArg (· + 1) beside.aliases, beside.parameters⟩,
    fun final _ => ⟨Set.Ioc_self _, ?_, _, rfl, named⟩⟩
  rw [beside.aliases]

/-- A literal is bound to the next parameter, whose value stands in its place. -/
theorem literal_follows (rename : String → String) (style : LiteralStyle) (cell : Cell) :
    Follows style (Sql.Counterpart rename style) (literal .bound cell) (literal style cell) := by
  intro draft draft' sql next beside drafted
  rw [literal_bound] at drafted
  cases drafted
  refine ⟨List.prefix_append _ _, ?_⟩
  have numbers (number : Nat) :
      number ∈ Sql.parameterNumbers [.parameter (draft.parameters.length + 1)] ↔
        number ∈ Set.Ioc draft.parameters.length (draft.parameters ++ [cell]).length := by
    simp only [Sql.parameterNumbers, List.filterMap_cons, List.filterMap_nil, List.mem_singleton,
      Set.mem_Ioc, List.length_append, List.length_singleton]
    omega
  have readable : SqlSymbol.Readable
      (Sql.symbols [.parameter (draft.parameters.length + 1)]) :=
    .single trivial
  cases style with
  | bound =>
    have same := beside.parameters rfl
    refine ⟨_, _, literal_bound cell, ⟨beside.aliases, fun _ => congrArg (· ++ [cell]) same⟩,
      fun final _ => ⟨readable, by simp [Sql.symbols, SqlPiece.symbols], ?_, numbers⟩⟩
    rw [same]
    rfl
  | inPlace =>
    refine ⟨_, _, rfl, ⟨beside.aliases, LiteralStyle.noConfusion⟩, fun final leads =>
      ⟨readable, by simp [Sql.symbols, SqlPiece.symbols], ?_, numbers⟩⟩
    obtain ⟨later, rfl⟩ := leads
    simp [SqlPiece.counterpart]

theorem typeOf_follows {rename : String → String} (injective : rename.Injective)
    (style : LiteralStyle) (schema : Schema) (operand : Expr String) :
    Follows style (fun _ numbers type type' => numbers = ∅ ∧ type' = type) (typeOf schema operand)
      (typeOf (schema.renamed rename) (operand.renamed rename)) := by
  intro draft draft' type next beside drafted
  obtain ⟨value, inferred, same⟩ := typeOf_eq_ok.mp drafted
  obtain ⟨value', inferred', rfl⟩ :=
    (operand.infer_renamed injective).exists_ok inferred
  cases same
  exact ⟨List.prefix_rfl, _, _, typeOf_eq_ok.mpr ⟨_, inferred', rfl⟩, beside,
    fun _ _ => ⟨Set.Ioc_self _, rfl⟩⟩

end Drafting

open Drafting

variable {rename : String → String}

/-! ## Expressions -/

namespace Expr

mutual

theorem draft_follows (injective : rename.Injective) (dialect : Dialect) (style : LiteralStyle)
    (schema : Schema) : ∀ expr : Expr String,
    Follows style (Sql.Counterpart rename style) (expr.draft dialect .bound schema)
      ((expr.renamed rename).draft dialect style (schema.renamed rename))
  | column name => .pure fun _ => .name name
  | literal value => by
    cases value with
    | null => exact .pure fun _ => .words (by decide)
    | bool | int | float | text => exact literal_follows rename style _
  | cast operand type => by
    rw [renamed, draft, draft, isNullLiteral_renamed]
    split
    · exact .pure fun _ => .cast (.words (by decide)) (wording_typeName dialect type)
    · refine (typeOf_follows injective style schema operand).bind ?_
      rintro _ source ⟨_, _, _, rfl⟩
      refine (operand.draft_follows injective dialect style schema).bindPure ?_
      rintro final numbers sql sql' part _ ⟨rfl, _⟩
      rw [Set.empty_union]
      exact part.convert source type
  | binary op left right => by
    rw [renamed, draft, draft]
    refine (left.draft_follows injective dialect style schema).bind fun _ _ _ => ?_
    exact (right.draft_follows injective dialect style schema).bindPure
      fun _ _ _ _ onRight _ onLeft => onLeft.binary onRight op
  | unary op operand => by
    rw [renamed, draft, draft]
    exact (operand.draft_follows injective dialect style schema).bindPure
      fun _ _ _ _ part => part.unary op
  | call function arguments => by
    rw [renamed, draft, draft]
    refine (draftAll_follows injective dialect style schema arguments).bind ?_
    rintro parts parts' ⟨_, _, known⟩
    cases found : Sql.scalar? dialect function parts with
    | none => exact .throw _ _
    | some sql =>
      obtain ⟨sql', found', _⟩ := known.scalar found
      rw [found']
      refine .pure fun final numbers each => ?_
      obtain ⟨_, same, part⟩ := each.scalar found
      cases found'.symm.trans same
      rwa [Set.union_empty]

theorem draftAll_follows (injective : rename.Injective) (dialect : Dialect) (style : LiteralStyle)
    (schema : Schema) : ∀ arguments : List (Expr String),
    Follows style (Sql.Counterparts rename style) (draftAll dialect .bound schema arguments)
      (draftAll dialect style (schema.renamed rename) (renamedAll rename arguments))
  | [] => .pure fun _ => .nil
  | argument :: rest => by
    rw [renamedAll, draftAll, draftAll]
    refine (argument.draft_follows injective dialect style schema).bind fun _ _ _ => ?_
    exact (draftAll_follows injective dialect style schema rest).bindPure
      fun _ _ _ _ more _ first => .cons first more

end

end Expr

/-! ## Operations -/

theorem Aggregate.draft_follows (injective : rename.Injective) (dialect : Dialect)
    (style : LiteralStyle) (schema : Schema) (aggregate : Aggregate) :
    Follows style (Sql.Counterpart rename style) (aggregate.draft dialect .bound schema)
      ((aggregate.renamed rename).draft dialect style (schema.renamed rename)) := by
  obtain ⟨function, argument⟩ := aggregate
  cases argument with
  | none => exact .pure fun _ => .aggregate none none (.words (by decide)) function
  | some argument =>
    exact (argument.draft_follows injective dialect style schema).bindPure
      fun _ _ sql sql' part => .aggregate (some sql) (some sql') part function

theorem WindowFunction.draft_follows (injective : rename.Injective) (dialect : Dialect)
    (style : LiteralStyle) (schema : Schema) (function : WindowFunction) :
    Follows style (Sql.Counterpart rename style) (function.draft dialect .bound schema)
      ((function.renamed rename).draft dialect style (schema.renamed rename)) := by
  have shifted {final : List Cell} {numbers : Set Nat} {sql sql' : Sql} {function : String}
      (wording : Wording function) (offset : UInt32)
      (part : Sql.Counterpart rename style final numbers sql sql') :
      Sql.Counterpart rename style final numbers
        (.call function [sql, .words (toString offset.toNat)])
        (.call function [sql', .words (toString offset.toNat)]) := by
    have arguments := Sql.Counterparts.cons part (.single (.words (wording_natural offset.toNat)))
    rw [Set.union_empty] at arguments
    exact .call wording arguments
  cases function with
  | rowNumber | rank => exact .pure fun _ => .words (by decide)
  | lead argument offset | lag argument offset =>
    exact (argument.draft_follows injective dialect style schema).bindPure
      fun _ _ _ _ part => shifted (by decide) offset part

theorem lookup_renamed {α : Type} (injective : rename.Injective) (renamed : α → α)
    (items : List (String × α)) (name : String) :
    (items.map (Prod.map rename renamed)).lookup (rename name) =
      (items.lookup name).map renamed := by
  induction items with
  | nil => rfl
  | cons item items ih =>
    have same : (rename name == rename item.1) = (name == item.1) := by
      rw [Bool.eq_iff_iff, beq_iff_eq, beq_iff_eq, injective.eq_iff]
    rw [List.map_cons, List.lookup_cons, List.lookup_cons, Prod.map_fst, same, ih]
    split <;> rfl

/-- Is what is written around one query the counterpart of what is written around another one? -/
def Sql.Around (rename : String → String) (style : LiteralStyle) (inner inner' : Sql)
    (parameters : List Cell) (more : Set Nat) (sql sql' : Sql) : Prop :=
  ∀ numbers, Counterpart rename style parameters numbers inner inner' →
    Counterpart rename style parameters (numbers ∪ more) sql sql'

namespace Verb

variable {dialect : Dialect} {style : LiteralStyle} {before before' : Signature}
  {columns : List String} {inner inner' : Sql}

theorem select_follows (fixed : rename positionColumn = positionColumn) (names : List String) :
    Follows style (Sql.Around rename style inner inner')
      ((select names).draft dialect .bound before columns inner)
      ((select (names.map rename)).draft dialect style before' (columns.map rename) inner') := by
  refine (newAlias_follows style).bindPure ?_
  rintro final _ _ _ ⟨rfl, rfl, _, rfl, wording⟩ numbers rows
  have items := @Sql.Counterparts.names rename style final (columns ++ [positionColumn])
  rw [List.map_append, List.map_singleton, fixed] at items
  exact items.selectFrom rows wording

/-- A column after an assignment is the value that is assigned to it, or the column itself. -/
theorem assigned_follows (injective : rename.Injective) (dialect : Dialect)
    (style : LiteralStyle) (schema : Schema) (assignments : List (String × Expr String))
    (column : String) :
    Follows style (Sql.Counterpart rename style)
      (match assignments.lookup column with
        | some expr => do return (← expr.draft dialect .bound schema).named column
        | none => return .name column)
      (match (assignments.map (Prod.map rename (Expr.renamed rename))).lookup (rename column) with
        | some expr => do
          return (← expr.draft dialect style (schema.renamed rename)).named (rename column)
        | none => return .name (rename column)) := by
  rw [lookup_renamed injective]
  cases assignments.lookup column with
  | none => exact .pure fun _ => .name column
  | some expr =>
    exact (expr.draft_follows injective dialect style schema).bindPure
      fun _ _ _ _ part => part.named column

theorem mutate_follows (injective : rename.Injective)
    (fixed : rename positionColumn = positionColumn)
    (schema : before'.schema = before.schema.renamed rename)
    (assignments : List (String × Expr String)) :
    Follows style (Sql.Around rename style inner inner')
      ((mutate assignments).draft dialect .bound before columns inner)
      (((mutate assignments).renamed rename).draft dialect style before' (columns.map rename)
        inner') := by
  rw [Verb.renamed, draft, draft, schema]
  refine (Follows.mapM fun column _ =>
    assigned_follows injective dialect style before.schema assignments column).bind fun _ _ _ => ?_
  refine (newAlias_follows style).bindPure ?_
  rintro final _ _ _ ⟨rfl, rfl, _, rfl, wording⟩ used each numbers rows
  have items := (each.separated (by decide : Closing ", ")).followedBy (by decide : Closing ", ")
    (.position fixed)
  exact items.selectFrom rows wording

theorem filter_follows (injective : rename.Injective)
    (schema : before'.schema = before.schema.renamed rename) (predicate : Expr String) :
    Follows style (Sql.Around rename style inner inner')
      ((filter predicate).draft dialect .bound before columns inner)
      (((filter predicate).renamed rename).draft dialect style before' (columns.map rename)
        inner') := by
  rw [Verb.renamed, draft, draft, schema]
  refine (predicate.draft_follows injective dialect style before.schema).bind fun _ _ _ => ?_
  refine (newAlias_follows style).bindPure ?_
  rintro final _ _ _ ⟨rfl, rfl, _, rfl, wording⟩ used condition numbers rows
  have star : Sql.Counterpart rename style final ∅ (.words "*") (.words "*") := .words (by decide)
  have filtered := (star.selectFrom rows wording).followedBy (by decide : Closing " WHERE ")
    condition
  simpa only [Set.union_empty] using filtered

theorem summarise_follows (injective : rename.Injective)
    (fixed : rename positionColumn = positionColumn)
    (schema : before'.schema = before.schema.renamed rename)
    (groups : before'.groups = before.groups.map rename)
    (aggregates : List (String × Aggregate)) :
    Follows style (Sql.Around rename style inner inner')
      ((summarise aggregates).draft dialect .bound before columns inner)
      (((summarise aggregates).renamed rename).draft dialect style before' (columns.map rename)
        inner') := by
  have value (assigned : String × Aggregate) : Follows style (Sql.Counterpart rename style)
      (do return (← assigned.2.draft dialect .bound before.schema).named assigned.1)
      (do return (← (assigned.2.renamed rename).draft dialect style
        (before.schema.renamed rename)).named (rename assigned.1)) :=
    (assigned.2.draft_follows injective dialect style before.schema).bindPure
      fun _ _ _ _ part => part.named assigned.1
  have sameKeys : ((before.groups.map rename).map Sql.name).isEmpty =
      (before.groups.map Sql.name).isEmpty := by
    simp only [List.isEmpty_map]
  rw [Verb.renamed, draft, draft, schema, groups]
  refine (Follows.mapM fun assigned _ => value assigned).bind fun values values' _ => ?_
  refine (newAlias_follows style).bind fun label label' _ => ?_
  rw [sameKeys]
  split
  · refine .pure ?_
    rintro final _ ⟨rfl, rfl, _, rfl, wording⟩ used each numbers rows
    have items := each.summaryItems (.words (by decide : Wording "0")) fixed before.groups
    simpa only [Set.union_empty, Set.empty_union] using items.selectFrom rows wording
  · refine .pure ?_
    rintro final _ ⟨rfl, rfl, _, rfl, wording⟩ used each numbers rows
    have least : Sql.Counterpart rename style final ∅ (.call "MIN" [.position])
        (.call "MIN" [.position]) :=
      .call (by decide) (.single (.position fixed))
    have items := each.summaryItems least fixed before.groups
    have grouped := (items.selectFrom rows wording).followedBy (by decide : Closing " GROUP BY ")
      (Sql.Counterparts.names before.groups)
    simpa only [Sql.names, Set.union_empty, Set.empty_union] using grouped

theorem orderBy_follows (fixed : rename positionColumn = positionColumn) (keys : List OrderKey) :
    Follows style (Sql.Around rename style inner inner')
      ((orderBy keys).draft dialect .bound before columns inner)
      (((orderBy keys).renamed rename).draft dialect style before' (columns.map rename) inner') := by
  refine (newAlias_follows style).bindPure ?_
  rintro final _ _ _ ⟨rfl, rfl, _, rfl, wording⟩ numbers rows
  have terms : Sql.Counterparts rename style final ∅
      (keys.map Sql.orderTerm ++ [.position])
      ((keys.map (OrderKey.renamed rename)).map Sql.orderTerm ++ [.position]) :=
    Set.union_empty (∅ : Set Nat) ▸
      .append (.map fun key _ => .orderTerm key) (.single (.position fixed))
  have items := (@Sql.Counterparts.names rename style final columns).followedBy
    (by decide : Closing ", ") (.numbered (terms.separated (by decide : Closing ", ")) fixed)
  rw [Set.union_empty] at items
  exact items.selectFrom rows wording

theorem window_follows (injective : rename.Injective)
    (fixed : rename positionColumn = positionColumn)
    (schema : before'.schema = before.schema.renamed rename) {added : Window}
    (computed : added.name ∈ columns) :
    Follows style (Sql.Around rename style inner inner')
      ((window added).draft dialect .bound before columns inner)
      (((window added).renamed rename).draft dialect style before' (columns.map rename) inner') := by
  rw [Verb.renamed, draft, draft, schema]
  refine (added.function.draft_follows injective dialect style before.schema).bind fun _ _ _ => ?_
  refine (newAlias_follows style).bindPure ?_
  rintro final _ _ _ ⟨rfl, rfl, _, rfl, wording⟩ used value numbers rows
  have items := (((value.windowed fixed added).replaced injective added.name columns).separated
    (by decide : Closing ", ")).followedBy (by decide : Closing ", ") (.position fixed)
  have present : {number ∈ used | added.name ∈ columns} = used := by
    simp [computed]
  rw [present] at items
  exact items.selectFrom rows wording

/-- What a step writes is the counterpart of what it writes around the counterpart of its rows. -/
theorem draft_follows (injective : rename.Injective)
    (fixed : rename positionColumn = positionColumn) (dialect : Dialect) (style : LiteralStyle)
    (schema : before'.schema = before.schema.renamed rename)
    (groups : before'.groups = before.groups.map rename) {verb : Verb}
    (computed : ∀ added, verb = .window added → added.name ∈ columns) (inner inner' : Sql) :
    Follows style (Sql.Around rename style inner inner')
      (verb.draft dialect .bound before columns inner)
      ((verb.renamed rename).draft dialect style before' (columns.map rename) inner') := by
  cases verb with
  | groupBy _ | rename _ => exact .pure fun _ numbers rows => (Set.union_empty numbers).symm ▸ rows
  | select names => exact select_follows fixed names
  | mutate assignments => exact mutate_follows injective fixed schema assignments
  | filter predicate => exact filter_follows injective schema predicate
  | summarise aggregates => exact summarise_follows injective fixed schema groups aggregates
  | orderBy keys => exact orderBy_follows fixed keys
  | window added => exact window_follows injective fixed schema (computed added rfl)

end Verb

/-! ## Chains -/

/-- The name of the hidden column is refused under the same names. -/
theorem Schema.requireUnreserved_follows (injective : rename.Injective)
    (fixed : rename positionColumn = positionColumn) (style : LiteralStyle) (schema : Schema) :
    Follows style (fun _ numbers _ _ => numbers = ∅) schema.requireUnreserved
      (schema.renamed rename).requireUnreserved := by
  have same := schema.position?_renamed injective positionColumn
  rw [fixed] at same
  rw [requireUnreserved, requireUnreserved, same]
  split
  · exact .throw _ _
  · exact .pure fun _ => rfl

namespace Chain

variable {chain : Chain} {known : Signature}

/-- The column of a window function is one of those after it. -/
theorem window_mem_names {input : Chain} {added : Window}
    (built : (apply input (.window added)).signature? = .ok known) :
    added.name ∈ known.schema.names := by
  obtain ⟨before, _, applied⟩ := built_below built
  obtain ⟨_, _, type, _, assigned⟩ := Signature.schema_of_window applied
  rw [Schema.names_assign_singleton assigned]
  split <;> simp [*]

theorem draft_follows (injective : rename.Injective)
    (fixed : rename positionColumn = positionColumn) (dialect : Dialect) (style : LiteralStyle)
    (renamable : chain.Renamable rename) (built : chain.signature? = .ok known) :
    Follows style (Sql.Counterpart rename style) (chain.draft dialect .bound)
      ((chain.renamed rename).draft dialect style) := by
  induction chain generalizing known with
  | source name schema =>
    rw [renamed, draft, draft]
    refine (schema.requireUnreserved_follows injective fixed style).bind fun _ _ _ => ?_
    refine .pure ?_
    rintro final _ rfl
    have columns := @Sql.Counterparts.names rename style final (schema.names ++ [positionColumn])
    rw [List.map_append, List.map_singleton, fixed, ← Schema.names_renamed] at columns
    exact (columns.wordsAppend (by decide : Wording "SELECT ")).followedBy
      (by decide : Closing " FROM ") (.name name)
  | apply input verb ih =>
    obtain ⟨before, below, applied⟩ := built_below built
    have onInput : input.Renamable rename := renamable
    have after : (apply (input.renamed rename) (verb.renamed rename)).schema =
        (apply input verb).schema.renamed rename := renamable.schema injective
    obtain ⟨schema, groups⟩ := onInput.signature injective
    have computed (added : Window) (isWindow : verb = .window added) :
        added.name ∈ (apply input verb).schema.names := by
      subst isWindow
      rw [Chain.schema, signature_of_built built]
      exact window_mem_names built
    rw [renamed, draft, draft, after, Schema.names_renamed]
    refine (Schema.requireUnreserved_follows injective fixed style _).bind fun _ _ _ => ?_
    refine (ih onInput below).bind fun inner inner' _ => ?_
    have writes := Verb.draft_follows injective fixed dialect style schema groups computed inner
      inner'
    refine writes.imp ?_
    rintro final more sql sql' writes numbers rows _ rfl
    rw [Set.empty_union]
    exact writes numbers rows
  | join input right kind pairs ih ih' =>
    obtain ⟨_, builtLeft, _, builtRight, _⟩ := built_sides built
    have onInput : input.Renamable rename := renamable.imp_right (·.1)
    have onRight : right.Renamable rename := renamable.imp_right (·.2)
    have after : (join (input.renamed rename) (right.renamed rename) kind
        (pairs.map (Prod.map rename rename))).schema =
          (join input right kind pairs).schema.renamed rename := renamable.schema injective
    rw [renamed, draft, draft, after, onInput.schema injective, onRight.schema injective,
      Schema.joinLayout_renamed injective, Schema.names_renamed]
    refine (Schema.requireUnreserved_follows injective fixed style _).bind fun _ _ _ => ?_
    -- both inner queries are drafted before the columns that stand in front of them
    refine (ih onInput builtLeft).bind fun leftRows leftRows' _ => ?_
    refine (ih' onRight builtRight).bind fun rightRows rightRows' _ => ?_
    refine (newAlias_follows style).bind fun label label' _ => ?_
    refine (newAlias_follows style).bindPure ?_
    rintro final _ _ _ ⟨rfl, rfl, _, rfl, wordingRight⟩ _ ⟨rfl, rfl, _, rfl, wordingLeft⟩
      ofRight rowsRight ofLeft rowsLeft _ rfl
    have items := (@Sql.Counterparts.joinItems rename style final _ _ input.schema right.schema
      pairs wordingLeft wordingRight (join input right kind pairs).schema.names).separated
        (by decide : Closing ", ")
    have selected := items.behind (by decide : Closing ", ")
      (.joinPosition fixed wordingLeft wordingRight)
    have condition := (@Sql.Counterpart.joinCondition rename style final _ _ wordingLeft
      wordingRight pairs).wordsAppend (by decide : Wording " ON ")
    have rows := (selected.selectFrom rowsLeft wordingLeft).behind (Sql.closing_joinWords kind)
      (rowsRight.behind (by decide : Closing ") AS ") (condition.wordsAppend wordingRight))
    simpa only [Sql.selectFrom, List.append_assoc, Set.union_empty, Set.empty_union] using rows

/-- The query of some columns of a plan. -/
theorem draftAll_follows (injective : rename.Injective)
    (fixed : rename positionColumn = positionColumn) (dialect : Dialect) (style : LiteralStyle)
    (renamable : chain.Renamable rename) (built : chain.signature? = .ok known)
    (columns : List String) :
    Follows style (Sql.Counterpart rename style) (chain.draftAll dialect .bound columns)
      ((chain.renamed rename).draftAll dialect style (columns.map rename)) := by
  refine (draft_follows injective fixed dialect style renamable built).bind fun _ _ _ => ?_
  refine (newAlias_follows style).bindPure ?_
  rintro final _ _ _ ⟨rfl, rfl, label, rfl, wording⟩ numbers rows
  have ordered := ((@Sql.Counterparts.names rename style final columns).selectFrom rows
    wording).behind (by decide : Closing " ORDER BY ") (.qualifiedPosition fixed wording)
  simpa only [← List.append_assoc, Set.union_empty] using ordered

/-- With new names, and with its literals bound or in place, a chain that compiles is written as the
counterpart of its compiled query. -/
theorem exists_counterpart (injective : rename.Injective)
    (fixed : rename positionColumn = positionColumn) {dialect : Dialect} (style : LiteralStyle)
    (renamable : chain.Renamable rename) {query : CompiledQuery}
    (compiled : chain.compile dialect = .ok query) :
    ∃ sql' draft', (chain.renamed rename).write dialect style = .ok (sql', draft') ∧
      (style = .bound → draft'.parameters = query.parameters) ∧
      Sql.Counterpart rename style query.parameters (Set.Ioc 0 query.parameters.length) query.sql
        sql' := by
  simp only [compile, write, plan, bind_eq_ok, mapError_eq_ok, pure_eq_ok, Prod.exists] at compiled
  obtain ⟨sql, draft, ⟨plan, optimized, drafted⟩, rfl⟩ := compiled
  obtain ⟨⟨known, built⟩, planned, optimized'⟩ := renamable.optimize injective optimized
  have beside : SqlDraft.Beside style {} {} := ⟨rfl, fun _ => rfl⟩
  obtain ⟨_, sql', draft', drafted', after, related⟩ := draftAll_follows injective fixed dialect
    style planned built chain.schema.names beside drafted
  refine ⟨sql', draft', ?_, after.parameters, related _ List.prefix_rfl⟩
  rw [write, Chain.plan, optimized', renamable.schema injective, Schema.names_renamed]
  exact drafted'

/-- A compiled query can be read symbol by symbol. -/
theorem legible_of_compile {dialect : Dialect} {query : CompiledQuery}
    (compiled : chain.compile dialect = .ok query) : SqlSymbol.Legible query.sql.symbols := by
  obtain ⟨_, _, _, _, part⟩ :=
    exists_counterpart Function.injective_id rfl .bound (.inl rfl) compiled
  exact part.legible

end Chain

end TablePipeline

import TablePipeline.Chain.Signature
import TablePipeline.Proofs.Expr.Scope
import TablePipeline.Proofs.Outcomes

/-! # Renamed chains

The names of tables and columns may be exchanged for others throughout a chain. As long as different
names stay different, every question about names has the answer that it had: a name stands for the
column that it stood for, and an expression has the type that it had.
-/

namespace TablePipeline

/-! ## Renaming -/

/-- The column under its new name. -/
def Column.renamed (rename : String → String) (column : Column) : Column :=
  { column with name := rename column.name }

/-- The schema with new names for its columns. -/
def Schema.renamed (rename : String → String) (schema : Schema) : Schema :=
  { schema with columns := schema.columns.map (Column.renamed rename) }

namespace Expr

mutual

/-- The expression over columns with new names. -/
def renamed (rename : String → String) : Expr String → Expr String
  | column name => column (rename name)
  | literal value => literal value
  | cast operand type => cast (operand.renamed rename) type
  | binary op left right => binary op (left.renamed rename) (right.renamed rename)
  | unary op operand => unary op (operand.renamed rename)
  | call function arguments => call function (renamedAll rename arguments)

@[inherit_doc renamed]
def renamedAll (rename : String → String) : List (Expr String) → List (Expr String)
  | [] => []
  | argument :: rest => argument.renamed rename :: renamedAll rename rest

end

end Expr

/-- The aggregate over columns with new names. -/
def Aggregate.renamed (rename : String → String) (aggregate : Aggregate) : Aggregate :=
  ⟨aggregate.function, aggregate.argument.map (Expr.renamed rename)⟩

/-- The window function over columns with new names. -/
def WindowFunction.renamed (rename : String → String) : WindowFunction → WindowFunction
  | rowNumber => rowNumber
  | rank => rank
  | lead argument offset => lead (argument.renamed rename) offset
  | lag argument offset => lag (argument.renamed rename) offset

/-- The key with a new name for its column. -/
def OrderKey.renamed (rename : String → String) (key : OrderKey) : OrderKey :=
  { key with column := rename key.column }

/-- The window with new names for all columns. -/
def Window.renamed (rename : String → String) (window : Window) : Window where
  name := rename window.name
  function := window.function.renamed rename
  partitionBy := window.partitionBy.map rename
  orderBy := window.orderBy.map (OrderKey.renamed rename)

/-- The operation on tables and columns with new names. -/
def Verb.renamed (rename : String → String) : Verb → Verb
  | select columns => select (columns.map rename)
  | mutate assignments => mutate (assignments.map (Prod.map rename (Expr.renamed rename)))
  | filter predicate => filter (predicate.renamed rename)
  | groupBy columns => groupBy (columns.map rename)
  | summarise aggregates => summarise (aggregates.map (Prod.map rename (Aggregate.renamed rename)))
  | orderBy keys => orderBy (keys.map (OrderKey.renamed rename))
  | window added => window (added.renamed rename)
  | .rename name => .rename (rename name)

/-- The chain with new names for all tables and columns. -/
def Chain.renamed (rename : String → String) : Chain → Chain
  | source name schema => source (rename name) (schema.renamed rename)
  | apply input verb => apply (input.renamed rename) (verb.renamed rename)
  | join input right kind pairs =>
    join (input.renamed rename) (right.renamed rename) kind (pairs.map (Prod.map rename rename))

/-! ## The names of a chain -/

/-- The columns that an aggregate refers to. -/
def Aggregate.references (aggregate : Aggregate) : List String :=
  (aggregate.argument.map Expr.references).getD []

/-- The columns that a window function refers to. -/
def WindowFunction.references (function : WindowFunction) : List String :=
  (function.argument?.map Expr.references).getD []

/-- All names that stand in an operation. -/
def Verb.names : Verb → List String
  | select columns | groupBy columns => columns
  | mutate assignments => assignments.flatMap fun (name, expr) => name :: expr.references
  | filter predicate => predicate.references
  | summarise aggregates => aggregates.flatMap fun (name, aggregate) => name :: aggregate.references
  | orderBy keys => keys.map (·.column)
  | window added =>
    added.name :: (added.function.references ++ added.partitionBy ++ added.orderBy.map (·.column))
  | rename name => [name]

/-- All names that stand in a chain. -/
def Chain.names : Chain → List String
  | source name schema => name :: schema.names
  | apply input verb => input.names ++ verb.names
  | join input right _ pairs =>
    input.names ++ right.names ++ pairs.flatMap fun (left, right) => [left, right]

section Congruence

variable {rename rename' : String → String}

theorem Schema.renamed_congr {schema : Schema}
    (agree : ∀ name ∈ schema.names, rename name = rename' name) :
    schema.renamed rename = schema.renamed rename' := by
  rw [renamed, renamed]
  congr 1
  refine List.map_congr_left fun column member => ?_
  rw [Column.renamed, Column.renamed, agree column.name (List.mem_map_of_mem member)]

mutual

theorem Expr.renamed_congr : ∀ {expr : Expr String},
    (∀ name ∈ expr.references, rename name = rename' name) →
      expr.renamed rename = expr.renamed rename'
  | .column name, agree => congrArg Expr.column (agree name (List.mem_singleton_self name))
  | .literal _, _ => rfl
  | .cast operand type, agree => congrArg (Expr.cast · type) (operand.renamed_congr agree)
  | .binary op left right, agree => by
    obtain ⟨onLeft, onRight⟩ := List.forall_mem_append.mp agree
    rw [Expr.renamed, Expr.renamed, left.renamed_congr onLeft, right.renamed_congr onRight]
  | .unary op operand, agree => congrArg (Expr.unary op) (operand.renamed_congr agree)
  | .call function arguments, agree => congrArg (Expr.call function) (Expr.renamedAll_congr agree)

theorem Expr.renamedAll_congr : ∀ {arguments : List (Expr String)},
    (∀ name ∈ referencesAll arguments, rename name = rename' name) →
      renamedAll rename arguments = renamedAll rename' arguments
  | [], _ => rfl
  | argument :: rest, agree => by
    obtain ⟨onFirst, onRest⟩ := List.forall_mem_append.mp agree
    rw [Expr.renamedAll, Expr.renamedAll, argument.renamed_congr onFirst,
      Expr.renamedAll_congr onRest]

end

theorem Aggregate.renamed_congr {aggregate : Aggregate}
    (agree : ∀ name ∈ aggregate.references, rename name = rename' name) :
    aggregate.renamed rename = aggregate.renamed rename' := by
  obtain ⟨function, argument⟩ := aggregate
  cases argument with
  | none => rfl
  | some argument =>
    exact congrArg (fun argument => Aggregate.mk function (some argument))
      (Expr.renamed_congr agree)

theorem WindowFunction.renamed_congr {function : WindowFunction}
    (agree : ∀ name ∈ function.references, rename name = rename' name) :
    function.renamed rename = function.renamed rename' := by
  cases function with
  | rowNumber | rank => rfl
  | lead argument offset | lag argument offset =>
    rw [renamed, renamed, Expr.renamed_congr agree]

theorem map_renamed_congr {keys : List OrderKey}
    (agree : ∀ name ∈ keys.map (·.column), rename name = rename' name) :
    keys.map (OrderKey.renamed rename) = keys.map (OrderKey.renamed rename') := by
  refine List.map_congr_left fun key member => ?_
  rw [OrderKey.renamed, OrderKey.renamed, agree key.column (List.mem_map_of_mem member)]

/-- What stands under names is renamed in one way if the names are, and so is what they name. -/
theorem map_named_congr {α : Type} {renamed renamed' : α → α} {references : α → List String}
    (congr : ∀ {item}, (∀ name ∈ references item, rename name = rename' name) →
      renamed item = renamed' item)
    {items : List (String × α)}
    (agree : ∀ name ∈ items.flatMap fun (name, item) => name :: references item,
      rename name = rename' name) :
    items.map (Prod.map rename renamed) = items.map (Prod.map rename' renamed') := by
  refine List.map_congr_left fun item member => Prod.ext ?_ ?_
  · exact agree _ (List.mem_flatMap.mpr ⟨item, member, List.mem_cons_self ..⟩)
  · exact congr fun name refers =>
      agree name (List.mem_flatMap.mpr ⟨item, member, List.mem_cons_of_mem _ refers⟩)

theorem Verb.renamed_congr {verb : Verb} (agree : ∀ name ∈ verb.names, rename name = rename' name) :
    verb.renamed rename = verb.renamed rename' := by
  cases verb with
  | select columns => exact congrArg select (List.map_congr_left agree)
  | mutate assignments => exact congrArg mutate (map_named_congr Expr.renamed_congr agree)
  | filter predicate => exact congrArg filter (Expr.renamed_congr agree)
  | groupBy columns => exact congrArg groupBy (List.map_congr_left agree)
  | summarise aggregates => exact congrArg summarise (map_named_congr Aggregate.renamed_congr agree)
  | orderBy keys => exact congrArg orderBy (map_renamed_congr agree)
  | window added =>
    obtain ⟨onName, onFunction, onPartition, onOrder⟩ :
        rename added.name = rename' added.name ∧
          (∀ name ∈ added.function.references, rename name = rename' name) ∧
          (∀ name ∈ added.partitionBy, rename name = rename' name) ∧
          ∀ name ∈ added.orderBy.map (·.column), rename name = rename' name := by
      simpa only [names, List.forall_mem_cons, List.forall_mem_append, and_assoc] using agree
    refine congrArg window ?_
    rw [Window.renamed, Window.renamed, onName, WindowFunction.renamed_congr onFunction,
      List.map_congr_left onPartition, map_renamed_congr onOrder]
  | rename name => exact congrArg Verb.rename (agree name (List.mem_singleton_self name))

/-- A renaming of a chain is told from the names that stand in it. -/
theorem Chain.renamed_congr {chain : Chain}
    (agree : ∀ name ∈ chain.names, rename name = rename' name) :
    chain.renamed rename = chain.renamed rename' := by
  induction chain with
  | source name schema =>
    obtain ⟨onName, onColumns⟩ := List.forall_mem_cons.mp agree
    rw [renamed, renamed, onName, Schema.renamed_congr onColumns]
  | apply input verb ih =>
    obtain ⟨below, here⟩ := List.forall_mem_append.mp agree
    rw [renamed, renamed, ih below, Verb.renamed_congr here]
  | join input right kind pairs ih ih' =>
    obtain ⟨sides, here⟩ := List.forall_mem_append.mp agree
    obtain ⟨onLeft, onRight⟩ := List.forall_mem_append.mp sides
    have samePairs : pairs.map (Prod.map rename rename) = pairs.map (Prod.map rename' rename') := by
      refine List.map_congr_left fun pair member => Prod.ext ?_ ?_
      · exact here _ (List.mem_flatMap.mpr ⟨pair, member, by simp⟩)
      · exact here _ (List.mem_flatMap.mpr ⟨pair, member, by simp⟩)
    rw [renamed, renamed, ih onLeft, ih' onRight, samePairs]

end Congruence

/-! ## No new names -/

section Identity

theorem map_prod_renamed_id {α : Type} {renamed : α → α} (same : renamed = id)
    (items : List (String × α)) : items.map (Prod.map id renamed) = items := by
  rw [same, Prod.map_id, List.map_id]

theorem Schema.renamed_id (schema : Schema) : schema.renamed id = schema := by
  have same : Column.renamed id = id := rfl
  rw [renamed, same, List.map_id]

mutual

theorem Expr.renamed_id : ∀ expr : Expr String, expr.renamed id = expr
  | .column _ | .literal _ => rfl
  | .cast operand type => congrArg (Expr.cast · type) operand.renamed_id
  | .binary op left right => by rw [Expr.renamed, left.renamed_id, right.renamed_id]
  | .unary op operand => congrArg (Expr.unary op) operand.renamed_id
  | .call function arguments => congrArg (Expr.call function) (Expr.renamedAll_id arguments)

theorem Expr.renamedAll_id : ∀ arguments : List (Expr String), renamedAll id arguments = arguments
  | [] => rfl
  | argument :: rest => by rw [Expr.renamedAll, argument.renamed_id, Expr.renamedAll_id]

end

theorem Aggregate.renamed_id (aggregate : Aggregate) : aggregate.renamed id = aggregate := by
  rw [renamed, funext Expr.renamed_id, Option.map_id']

theorem WindowFunction.renamed_id (function : WindowFunction) : function.renamed id = function := by
  cases function with
  | rowNumber | rank => rfl
  | lead argument offset | lag argument offset => rw [renamed, Expr.renamed_id]

theorem Verb.renamed_id (verb : Verb) : verb.renamed id = verb := by
  have keys : OrderKey.renamed id = id := rfl
  cases verb with
  | select columns | groupBy columns => rw [renamed, List.map_id]
  | mutate assignments => rw [renamed, map_prod_renamed_id (funext Expr.renamed_id)]
  | filter predicate => rw [renamed, Expr.renamed_id]
  | summarise aggregates => rw [renamed, map_prod_renamed_id (funext Aggregate.renamed_id)]
  | orderBy columns => rw [renamed, keys, List.map_id]
  | window added =>
    rw [renamed, Window.renamed, WindowFunction.renamed_id, keys, List.map_id, List.map_id]
    rfl
  | rename name => rfl

theorem Chain.renamed_id (chain : Chain) : chain.renamed id = chain := by
  induction chain with
  | source name schema => rw [renamed, Schema.renamed_id]; rfl
  | apply input verb ih => rw [renamed, ih, Verb.renamed_id]
  | join input right kind pairs ih ih' =>
    rw [renamed, ih, ih', Prod.map_id, List.map_id]

end Identity

/-! ## Columns -/

namespace Schema

variable {rename : String → String}

theorem names_renamed (rename : String → String) (schema : Schema) :
    (schema.renamed rename).names = schema.names.map rename := by
  rw [names, names, renamed, List.map_map, List.map_map]
  rfl

theorem width_renamed (rename : String → String) (schema : Schema) :
    (schema.renamed rename).width = schema.width :=
  List.length_map ..

/-- A column of a new name is looked for as the one of the old name was. -/
theorem name_renamed_eq (injective : rename.Injective) (name : String) :
    (fun column : Column => decide (column.name = rename name)) ∘ Column.renamed rename =
      fun column => decide (column.name = name) := by
  funext column
  exact decide_eq_decide.mpr injective.eq_iff

theorem position?_renamed (injective : rename.Injective) (schema : Schema) (name : String) :
    (schema.renamed rename).position? (rename name) = schema.position? name := by
  rw [position?, position?, renamed, List.findIdx?_map, name_renamed_eq injective]

theorem column?_renamed (injective : rename.Injective) (schema : Schema) (name : String) :
    (schema.renamed rename).column? (rename name) =
      (schema.column? name).map (Column.renamed rename) := by
  rw [column?, column?, renamed, List.find?_map, name_renamed_eq injective]

theorem nameAt_renamed (rename : String → String) {schema : Schema} {position : Nat}
    (inside : position < schema.width) :
    (schema.renamed rename).nameAt position = rename (schema.nameAt position) := by
  rw [nameAt, nameAt, renamed, List.getElem?_map, List.getElem?_eq_getElem inside]
  rfl

theorem renamed_injective (injective : rename.Injective) :
    Function.Injective (Schema.renamed rename) := by
  intro schema schema' same
  have columns : Function.Injective (Column.renamed rename) := by
    intro column column' same
    injection same with names types nulls
    cases column
    cases column'
    cases injective names
    cases types
    cases nulls
    rfl
  injection same with sameColumns samePrimary sameUnique
  cases schema
  cases schema'
  cases List.map_injective_iff.mpr columns sameColumns
  cases samePrimary
  cases sameUnique
  rfl

theorem resolve_renamed (injective : rename.Injective) (schema : Schema) (clause : Clause)
    (name : String) : SameOutcome (fun position position' => position' = position)
      (schema.resolve clause name) ((schema.renamed rename).resolve clause (rename name)) := by
  rw [resolve, resolve, position?_renamed injective]
  split
  · exact .ok rfl
  · exact .error _ _

theorem resolveColumn_renamed (injective : rename.Injective) (schema : Schema) (clause : Clause)
    (name : String) : SameOutcome (fun column column' => column' = column.renamed rename)
      (schema.resolveColumn clause name)
      ((schema.renamed rename).resolveColumn clause (rename name)) := by
  rw [resolveColumn, resolveColumn, column?_renamed injective]
  cases schema.column? name with
  | some column => exact .ok rfl
  | none => exact .error _ _

end Schema

/-! ## Types -/

/-- Do both computations give the same type, or does none of them give one? -/
abbrev SameType {ε ζ : Type} : Except ε ValueType → Except ζ ValueType → Prop :=
  SameOutcome fun type type' => type' = type

/-! The context of an error does not matter for a type. -/

theorem ValueType.numeric_context (value : ValueType) (context context' : String) :
    SameType (value.numeric context) (value.numeric context') := by
  rw [numeric, numeric]
  split
  · exact .ok rfl
  · exact .error _ _

theorem ValueType.expect_context (value : ValueType) (type : CellType) (context context' : String) :
    SameType (value.expect context type) (value.expect context' type) := by
  rw [expect, expect]
  split
  · exact .ok rfl
  · exact .error _ _

theorem BinaryOp.infer_context (op : BinaryOp) (left right : ValueType)
    (context context' : String) :
    SameType (op.infer context left right) (op.infer context' left right) := by
  cases op with
  | arithmetic op =>
    refine (left.numeric_context context context').bind ?_
    rintro _ _ _ rfl
    refine (right.numeric_context context context').bind ?_
    rintro _ _ _ rfl
    exact .ite .rfl (.ok rfl) (.ok rfl)
  | comparison op => exact .ite .rfl (.ok rfl) (.error _ _)
  | logical op =>
    refine (left.expect_context .bool context context').bind ?_
    rintro _ _ _ rfl
    refine (right.expect_context .bool context context').bind ?_
    rintro _ _ _ rfl
    exact .ok rfl

theorem UnaryOp.infer_context (op : UnaryOp) (operand : ValueType) (context context' : String) :
    SameType (op.infer context operand) (op.infer context' operand) := by
  cases op with
  | negate => exact operand.numeric_context context context'
  | not => exact operand.expect_context .bool context context'
  | isNull | isNotNull => exact .ok rfl

theorem coalesceType_context (context context' : String) (type : CellType)
    (others : List ValueType) : SameOutcome (fun type type' => type' = type)
      (coalesceType context type others) (coalesceType context' type others) := by
  induction others generalizing type with
  | nil => exact .ok rfl
  | cons next rest ih =>
    rw [coalesceType, coalesceType]
    refine .ite .rfl (ih type) ?_
    cases type.widest? next.type with
    | some wider => exact ih wider
    | none => exact .error _ _

theorem ScalarFunction.infer_context (function : ScalarFunction) (arguments : List ValueType)
    (context context' : String) :
    SameType (function.infer context arguments) (function.infer context' arguments) := by
  unfold infer
  split
  · refine (ValueType.numeric_context _ context context').bind ?_
    rintro _ _ _ rfl
    exact .ok rfl
  · exact ValueType.numeric_context _ context context'
  · refine (ValueType.numeric_context _ context context').bind ?_
    rintro _ _ _ rfl
    exact .ok rfl
  · rename_i base exponent
    refine (base.numeric_context context context').bind ?_
    rintro _ _ _ rfl
    refine .ite .rfl (.ok rfl) ?_
    refine (exponent.numeric_context context context').bind ?_
    rintro _ _ _ rfl
    exact .ok rfl
  · exact ValueType.expect_context _ _ context context'
  · refine (coalesceType_context context context' _ _).bind ?_
    rintro _ _ _ rfl
    exact .ok rfl
  · exact .error _ _

namespace Expr

variable {rename : String → String} {schema : Schema} {clause : Clause}

theorem isNullLiteral_renamed (rename : String → String) (expr : Expr String) :
    (expr.renamed rename).isNullLiteral = expr.isNullLiteral := by
  cases expr with
  | literal value => rfl
  | column | cast | binary | unary | call => rfl

theorem length_renamedAll (rename : String → String) (arguments : List (Expr String)) :
    (renamedAll rename arguments).length = arguments.length := by
  induction arguments with
  | nil => rfl
  | cons argument rest ih => rw [renamedAll, List.length_cons, List.length_cons, ih]

mutual

/-- Expressions keep their types. -/
theorem infer_renamed (injective : rename.Injective) : ∀ expr : Expr String,
    SameType (expr.infer schema clause) ((expr.renamed rename).infer (schema.renamed rename) clause)
  | column name => by
    refine (schema.resolveColumn_renamed injective clause name).bind ?_
    rintro _ _ _ rfl
    exact .ok rfl
  | literal value => by
    rw [renamed, infer, infer]
    split
    · exact .ok rfl
    · exact .error _ _
  | cast operand type => by
    rw [renamed, infer, infer]
    refine .ite (by rw [isNullLiteral_renamed]) (.ok rfl) ?_
    refine (infer_renamed injective operand).bind ?_
    rintro _ _ _ rfl
    exact .ite .rfl (.ok rfl) (.error _ _)
  | binary op left right => by
    rw [renamed, infer, infer]
    refine (infer_renamed injective left).bind ?_
    rintro _ leftType _ rfl
    refine (infer_renamed injective right).bind ?_
    rintro _ rightType _ rfl
    exact op.infer_context leftType rightType _ _
  | unary op operand => by
    rw [renamed, infer, infer]
    refine (infer_renamed injective operand).bind ?_
    rintro _ type _ rfl
    exact op.infer_context type _ _
  | call function arguments => by
    have inferred (context context' : String) :
        SameType (inferAll schema clause arguments >>= function.infer context)
          (inferAll (schema.renamed rename) clause (renamedAll rename arguments) >>=
            function.infer context') := by
      refine (inferAll_renamed injective arguments).bind ?_
      rintro _ types _ rfl
      exact function.infer_context types context context'
    rw [renamed, infer, infer, length_renamedAll]
    split
    · exact .ite .rfl (inferred _ _) (.error _ _)
    · exact inferred _ _

theorem inferAll_renamed (injective : rename.Injective) : ∀ arguments : List (Expr String),
    SameOutcome (fun types types' => types' = types) (inferAll schema clause arguments)
      (inferAll (schema.renamed rename) clause (renamedAll rename arguments))
  | [] => .ok rfl
  | argument :: rest => by
    rw [renamedAll, inferAll, inferAll]
    refine (infer_renamed injective argument).bind ?_
    rintro _ _ _ rfl
    refine (inferAll_renamed injective rest).bind ?_
    rintro _ _ _ rfl
    exact .ok rfl

end

end Expr

theorem Aggregate.infer_renamed {rename : String → String} (injective : rename.Injective)
    (schema : Schema) (aggregate : Aggregate) :
    SameType (aggregate.infer schema)
      ((aggregate.renamed rename).infer (schema.renamed rename)) := by
  obtain ⟨function, argument⟩ := aggregate
  cases argument with
  | none => exact .ite .rfl (.ok rfl) (.error _ _)
  | some argument =>
    refine (Expr.infer_renamed injective argument).bind ?_
    rintro _ value _ rfl
    cases function with
    | count | countRows => exact .ok rfl
    | sum =>
      refine (value.numeric_context _ _).bind ?_
      rintro _ _ _ rfl
      exact .ok rfl
    | mean =>
      refine (value.numeric_context _ _).bind ?_
      rintro _ _ _ rfl
      exact .ok rfl
    | min | max => exact .guard .rfl (.ok rfl)

theorem WindowFunction.infer_renamed {rename : String → String} (injective : rename.Injective)
    (schema : Schema) (function : WindowFunction) :
    SameType (function.infer schema) ((function.renamed rename).infer (schema.renamed rename)) := by
  cases function with
  | rowNumber | rank => exact .ok rfl
  | lead argument offset | lag argument offset =>
    refine (Expr.infer_renamed injective argument).bind ?_
    rintro _ _ _ rfl
    exact .ok rfl

end TablePipeline

import TablePipeline.Chain.Run
import TablePipeline.Proofs.Chain.Exchange
import TablePipeline.Proofs.Chain.Preservation

/-! # What keys decide

The keys of a source decide which joins a chain may make. Apart from that they decide nothing: two
chains that differ in the keys of their sources alone, and that can both be built, give the same
rows under the same columns.
-/

namespace TablePipeline

/-! ## Schemas with the same columns -/

namespace Schema

variable {schema schema' : Schema}

theorem resolve_congr (same : schema.columns = schema'.columns) :
    schema.resolve = schema'.resolve := by
  funext clause name
  rw [resolve, resolve, position?, position?, names, names, same]

theorem resolveColumn_congr (same : schema.columns = schema'.columns) :
    schema.resolveColumn = schema'.resolveColumn := by
  funext clause name
  rw [resolveColumn, resolveColumn, column?, column?, names, names, same]

theorem positions_congr (same : schema.columns = schema'.columns) :
    schema.positions = schema'.positions := by
  funext clause names
  rw [positions, positions, resolve_congr same]

theorem orderKeys_congr (same : schema.columns = schema'.columns) :
    schema.orderKeys = schema'.orderKeys := by
  funext keys
  rw [orderKeys, orderKeys, positions_congr same]

end Schema

namespace Expr

variable {schema schema' : Schema}

mutual

/-- Names are bound to positions by the columns of a schema. -/
theorem bind_congr (same : schema.columns = schema'.columns) :
    ∀ expr : Expr String, expr.bind schema = expr.bind schema'
  | column name => by rw [bind, bind, Schema.resolve_congr same]
  | literal value => rfl
  | cast operand type => by rw [bind, bind, bind_congr same operand]
  | binary op left right => by
    rw [bind, bind, bind_congr same left, bind_congr same right]
  | unary op operand => by rw [bind, bind, bind_congr same operand]
  | call function arguments => by rw [bind, bind, bindAll_congr same arguments]

@[inherit_doc bind_congr]
theorem bindAll_congr (same : schema.columns = schema'.columns) :
    ∀ arguments : List (Expr String), bindAll schema arguments = bindAll schema' arguments
  | [] => rfl
  | argument :: rest => by
    rw [bindAll, bindAll, bind_congr same argument, bindAll_congr same rest]

end

/-- Types are inferred from the columns of a schema. -/
theorem infer_congr (same : schema.columns = schema'.columns) {clause : Clause}
    {expr : Expr String} {type type' : ValueType} (typed : expr.infer schema clause = .ok type)
    (typed' : expr.infer schema' clause = .ok type') : type = type' := by
  have agree : ∀ name ∈ expr.references, schema.column? name = schema'.column? name := by
    intro name _
    rw [Schema.column?, Schema.column?, same]
  exact Except.ok.inj ((infer_of_agree expr agree typed).symm.trans typed')

end Expr

/-! ## Rows -/

theorem WindowFunction.bind_congr {schema schema' : Schema}
    (same : schema.columns = schema'.columns) (function : WindowFunction) :
    function.bind schema = function.bind schema' := by
  cases function with
  | rowNumber | rank => rfl
  | lead argument offset | lag argument offset =>
    rw [bind, bind, Expr.bind_congr same argument]

/-- What is known before a step decides its rows by the columns and the groups alone. -/
theorem Verb.rows_congr {before before' : Signature} {after after' : Schema}
    (same : before.schema.columns = before'.schema.columns)
    (groups : before.groups = before'.groups) (same' : after.columns = after'.columns)
    (rows : List Row) (verb : Verb) :
    verb.rows before after rows = verb.rows before' after' rows := by
  have bound : bindExpr before.schema = bindExpr before'.schema := by
    funext expr
    rw [bindExpr, bindExpr, Expr.bind_congr same]
  cases verb with
  | groupBy columns | rename name => rfl
  | select columns => rw [Verb.rows, Verb.rows, Schema.positions_congr same]
  | mutate assignments =>
    simp only [Verb.rows, bindAssignments, assignedItems, bound, Schema.resolve_congr same,
      Schema.names, same']
  | filter predicate => rw [Verb.rows, Verb.rows, bound]
  | summarise aggregates =>
    simp only [Verb.rows, Schema.positions_congr same, groups, bindAggregates, bound, same']
  | orderBy keys => rw [Verb.rows, Verb.rows, Schema.orderKeys_congr same]
  | window added =>
    simp only [Verb.rows, Schema.positions_congr same, Schema.orderKeys_congr same,
      WindowFunction.bind_congr same, Schema.resolve_congr same, Schema.names, same']

theorem joinKeyColumns_congr {left left' right right' : Schema}
    (same : left.columns = left'.columns) (same' : right.columns = right'.columns)
    (pairs : List (String × String)) :
    joinKeyColumns left right pairs = joinKeyColumns left' right' pairs := by
  rw [joinKeyColumns, joinKeyColumns, Schema.positions_congr same, Schema.positions_congr same',
    same, same']

theorem Schema.joinLayout_congr {left left' right right' : Schema}
    (same : left.columns = left'.columns) (same' : right.columns = right'.columns)
    (pairs : List (String × String)) :
    joinLayout left right pairs = joinLayout left' right' pairs := by
  have names {schema schema' : Schema} (same : schema.columns = schema'.columns) :
      schema.nameAt = schema'.nameAt := by
    funext position
    rw [nameAt, nameAt, same]
  have positions : right.position? = right'.position? := by
    funext name
    rw [position?, position?, same']
  simp only [joinLayout, names same, names same', positions, width, same, same']

/-! ## Signatures -/

/-- The groups after a step. -/
def Verb.groupsAfter (groups : List String) : Verb → List String
  | groupBy columns => columns
  | rename _ => groups
  | _ => []

/-- The name of the table after a step. -/
def Verb.nameAfter (name : String) : Verb → String
  | rename name => name
  | _ => name

namespace Signature

variable {before before' after after' : Signature}

/-- A step decides the groups and the name after it, and reads no source. -/
theorem known_of_apply {verb : Verb} (applied : before.apply verb = .ok after) :
    after.groups = verb.groupsAfter before.groups ∧ after.name = verb.nameAfter before.name ∧
      after.sources = before.sources := by
  cases verb <;>
    simp only [apply, throw_bind, guard_eq_ok, bind_eq_ok, pure_eq_ok] at applied
  case select => obtain ⟨_, _, _, _, _, _, rfl⟩ := applied; exact ⟨rfl, rfl, rfl⟩
  case mutate => obtain ⟨_, _, _, _, _, _, _, rfl⟩ := applied; exact ⟨rfl, rfl, rfl⟩
  case filter => obtain ⟨_, _, _, _, _, rfl⟩ := applied; exact ⟨rfl, rfl, rfl⟩
  case groupBy => obtain ⟨_, _, _, _, _, rfl⟩ := applied; exact ⟨rfl, rfl, rfl⟩
  case summarise => obtain ⟨_, _, _, rfl⟩ := applied; exact ⟨rfl, rfl, rfl⟩
  case orderBy => obtain ⟨_, _, _, _, rfl⟩ := applied; exact ⟨rfl, rfl, rfl⟩
  case window => obtain ⟨_, _, _, _, _, _, _, _, _, _, rfl⟩ := applied; exact ⟨rfl, rfl, rfl⟩
  case rename => obtain ⟨_, rfl⟩ := applied; exact ⟨rfl, rfl, rfl⟩

/-- Do two signatures differ in keys and sources at most? -/
structure Alike (signature signature' : Signature) : Prop where
  columns : signature.schema.columns = signature'.schema.columns
  groups : signature.groups = signature'.groups
  name : signature.name = signature'.name

/-- Lists of results are the same if the results of every item are. -/
theorem forall₂_unique {α β : Type} {related related' : α → β → Prop} {items : List α}
    {results results' : List β}
    (unique : ∀ item result result', related item result → related' item result' →
      result = result')
    (each : List.Forall₂ related items results) (each' : List.Forall₂ related' items results') :
    results = results' := by
  induction each generalizing results' with
  | nil =>
    cases each'
    rfl
  | cons first _ ih =>
    obtain ⟨result', results', first', others', rfl⟩ := List.forall₂_cons_left_iff.mp each'
    rw [unique _ _ _ first first', ih others']

theorem assign_congr {schema schema' assigned assigned' : Schema} {columns : List Column}
    (same : schema.columns = schema'.columns) (made : schema.assign columns = .ok assigned)
    (made' : schema'.assign columns = .ok assigned') : assigned.columns = assigned'.columns := by
  rw [Schema.columns_of_assign made, Schema.columns_of_assign made', same]
  simp only [Schema.position?, same]

theorem assignedColumns_congr {schema schema' : Schema} (same : schema.columns = schema'.columns)
    {assignments : List (String × Expr String)} {columns columns' : List Column}
    (typed : assignedColumns schema assignments = .ok columns)
    (typed' : assignedColumns schema' assignments = .ok columns') : columns = columns' := by
  rw [assignedColumns, mapM_eq_ok] at typed typed'
  refine forall₂_unique (fun item column column' first first' => ?_) typed typed'
  simp only [bind_eq_ok, pure_eq_ok] at first first'
  obtain ⟨type, typed, rfl⟩ := first
  obtain ⟨type', typed', rfl⟩ := first'
  rw [Expr.infer_congr same typed typed']

theorem aggregate_congr {schema schema' : Schema} (same : schema.columns = schema'.columns)
    {aggregate : Aggregate} {type type' : ValueType} (typed : aggregate.infer schema = .ok type)
    (typed' : aggregate.infer schema' = .ok type') : type = type' := by
  obtain ⟨function, argument⟩ := aggregate
  cases argument with
  | none => exact Except.ok.inj (typed.symm.trans typed')
  | some argument =>
    simp only [Aggregate.infer, bind_eq_ok] at typed typed'
    obtain ⟨value, known, result⟩ := typed
    obtain ⟨value', known', result'⟩ := typed'
    rw [Expr.infer_congr same known known'] at result
    exact Except.ok.inj (result.symm.trans result')

theorem windowFunction_congr {schema schema' : Schema} (same : schema.columns = schema'.columns)
    {function : WindowFunction} {type type' : ValueType} (typed : function.infer schema = .ok type)
    (typed' : function.infer schema' = .ok type') : type = type' := by
  cases function with
  | rowNumber | rank => exact Except.ok.inj (typed.symm.trans typed')
  | lead argument offset | lag argument offset =>
    simp only [WindowFunction.infer, bind_eq_ok, pure_eq_ok] at typed typed'
    obtain ⟨value, known, rfl⟩ := typed
    obtain ⟨value', known', rfl⟩ := typed'
    rw [Expr.infer_congr same known known']

namespace Alike

/-- A step keeps signatures alike. -/
theorem apply {verb : Verb} (alike : before.Alike before')
    (applied : before.apply verb = .ok after) (applied' : before'.apply verb = .ok after') :
    after.Alike after' := by
  obtain ⟨groups, name, _⟩ := known_of_apply applied
  obtain ⟨groups', name', _⟩ := known_of_apply applied'
  refine ⟨?_, by rw [groups, groups', alike.groups], by rw [name, name', alike.name]⟩
  cases verb with
  | select columns =>
    have known := Schema.columns_of_select (schema_of_select applied)
    have known' := Schema.columns_of_select (schema_of_select applied')
    rw [Schema.resolveColumn_congr alike.columns] at known
    exact Except.ok.inj (known.symm.trans known')
  | mutate assignments =>
    obtain ⟨_, _, columns, typed, schema, assigned, rfl⟩ := apply_mutate.mp applied
    obtain ⟨_, _, columns', typed', schema', assigned', rfl⟩ := apply_mutate.mp applied'
    cases assignedColumns_congr alike.columns typed typed'
    exact assign_congr alike.columns assigned assigned'
  | filter predicate =>
    obtain ⟨_, _, rfl⟩ := apply_filter.mp applied
    obtain ⟨_, _, rfl⟩ := apply_filter.mp applied'
    exact alike.columns
  | groupBy columns =>
    rw [schema_of_groupBy applied, schema_of_groupBy applied', alike.columns]
  | summarise aggregates =>
    obtain ⟨keys, values, known, typed, columns⟩ :=
      columns_of_summarise (schema_of_summarise applied)
    obtain ⟨keys', values', known', typed', columns'⟩ :=
      columns_of_summarise (schema_of_summarise applied')
    rw [Schema.resolveColumn_congr alike.columns, alike.groups] at known
    rw [columns, columns', Except.ok.inj (known.symm.trans known')]
    refine congrArg _ (forall₂_unique (fun item column column' first first' => ?_) typed typed')
    obtain ⟨type, typed, rfl⟩ := first
    obtain ⟨type', typed', rfl⟩ := first'
    rw [aggregate_congr alike.columns typed typed']
  | orderBy keys =>
    obtain ⟨_, _, _, rfl⟩ := apply_orderBy.mp applied
    obtain ⟨_, _, _, rfl⟩ := apply_orderBy.mp applied'
    exact alike.columns
  | window added =>
    obtain ⟨_, _, type, typed, assigned⟩ := schema_of_window applied
    obtain ⟨_, _, type', typed', assigned'⟩ := schema_of_window applied'
    cases windowFunction_congr alike.columns typed typed'
    exact assign_congr alike.columns assigned assigned'
  | rename name => rw [schema_of_rename applied, schema_of_rename applied', alike.columns]

/-- A join keeps signatures alike. -/
theorem join {left left' right right' : Signature} {kind : JoinKind}
    {pairs : List (String × String)} (alike : left.Alike left') (alike' : right.Alike right')
    (joined : left.join right kind pairs = .ok after)
    (joined' : left'.join right' kind pairs = .ok after') : after.Alike after' := by
  obtain ⟨_, schema, made, _, _, rfl⟩ := join_eq_ok.mp joined
  obtain ⟨_, schema', made', _, _, rfl⟩ := join_eq_ok.mp joined'
  refine ⟨?_, rfl, alike.name⟩
  have columns : Schema.joinColumn? left.schema right.schema kind =
      Schema.joinColumn? left'.schema right'.schema kind := by
    funext entry
    rw [Schema.joinColumn?, Schema.joinColumn?, alike.columns, alike'.columns]
  rw [Schema.columns_of_join made, Schema.columns_of_join made', columns,
    Schema.joinLayout_congr alike.columns alike'.columns]

end Alike

end Signature

/-! ## Runs -/

namespace Chain

/-- Do two chains differ in the keys of their sources at most? -/
inductive Alike : Chain → Chain → Prop where
  | source (name : String) {schema schema' : Schema} (columns : schema.columns = schema'.columns) :
      Alike (.source name schema) (.source name schema')
  | apply {input input' : Chain} (verb : Verb) (alike : Alike input input') :
      Alike (.apply input verb) (.apply input' verb)
  | join {input input' right right' : Chain} (kind : JoinKind) (pairs : List (String × String))
      (alike : Alike input input') (alike' : Alike right right') :
      Alike (.join input right kind pairs) (.join input' right' kind pairs)

variable {chain chain' : Chain} {known known' : Signature}

theorem Alike.signatures (alike : Alike chain chain') (built : chain.signature? = .ok known)
    (built' : chain'.signature? = .ok known') : known.Alike known' := by
  induction alike generalizing known known' with
  | source name columns =>
    cases built
    cases built'
    exact ⟨columns, rfl, rfl⟩
  | apply verb _ ih =>
    obtain ⟨before, below, applied⟩ := built_below built
    obtain ⟨before', below', applied'⟩ := built_below built'
    exact (ih below below').apply applied applied'
  | join kind pairs _ _ ih ih' =>
    obtain ⟨left, builtLeft, beside, builtRight, joined⟩ := built_sides built
    obtain ⟨left', builtLeft', beside', builtRight', joined'⟩ := built_sides built'
    exact (ih builtLeft builtLeft').join (ih' builtRight builtRight') joined joined'

theorem toOption_bind {ε α β : Type} (first : Except ε α) (next : α → Except ε β) :
    (first >>= next).toOption = first.toOption.bind fun value => (next value).toOption := by
  cases first <;> rfl

theorem toOption_source (inputs : Inputs) (name : String) {schema schema' : Schema}
    (same : schema.columns = schema'.columns) :
    (inputs.source name schema).toOption = (inputs.source name schema').toOption := by
  rw [Inputs.source, Inputs.source, toOption_bind, toOption_bind]
  congr 1
  funext table
  rw [Schema.sameShape, Schema.sameShape, same]
  split <;> rfl

/-- Chains that differ in the keys of their sources give the same rows, or both fail. -/
theorem Alike.rows (alike : Alike chain chain') (built : chain.signature? = .ok known)
    (built' : chain'.signature? = .ok known') (inputs : Inputs) :
    (chain.rows inputs).toOption = (chain'.rows inputs).toOption := by
  induction alike generalizing known known' with
  | source name columns =>
    rw [Chain.rows, Chain.rows, toOption_bind, toOption_bind, toOption_source inputs name columns]
  | @apply input input' verb below ih =>
    obtain ⟨before, builtBelow, _⟩ := built_below built
    obtain ⟨before', builtBelow', _⟩ := built_below built'
    have sameBefore := below.signatures builtBelow builtBelow'
    have sameAfter := (Alike.apply verb below).signatures built built'
    rw [Chain.rows, Chain.rows, toOption_bind, toOption_bind, ih builtBelow builtBelow']
    congr 1
    funext rows
    rw [schema, schema, signature_of_built builtBelow, signature_of_built builtBelow',
      signature_of_built built, signature_of_built built',
      Verb.rows_congr sameBefore.columns sameBefore.groups sameAfter.columns]
  | @join input input' right right' kind pairs below beside ih ih' =>
    obtain ⟨_, builtLeft, _, builtRight, _⟩ := built_sides built
    obtain ⟨_, builtLeft', _, builtRight', _⟩ := built_sides built'
    have sameLeft : input.schema.columns = input'.schema.columns := by
      rw [schema, schema, signature_of_built builtLeft, signature_of_built builtLeft']
      exact (below.signatures builtLeft builtLeft').columns
    have sameRight : right.schema.columns = right'.schema.columns := by
      rw [schema, schema, signature_of_built builtRight, signature_of_built builtRight']
      exact (beside.signatures builtRight builtRight').columns
    rw [Chain.rows, Chain.rows, toOption_bind, toOption_bind, ih builtLeft builtLeft']
    congr 1
    funext leftRows
    rw [toOption_bind, toOption_bind, ih' builtRight builtRight']
    congr 1
    funext rightRows
    rw [joinKeyColumns_congr sameLeft sameRight, Schema.joinLayout_congr sameLeft sameRight]

/-- What a run gives, without the keys of the table. -/
def content (table : Table) : String × List Column × List Row :=
  (table.name, table.schema.columns, table.rows)

theorem content_ofRows (name : String) {schema schema' : Schema}
    (same : schema.columns = schema'.columns) (rows : List Row) :
    (Table.ofRows name schema rows).toOption.map content =
      (Table.ofRows name schema' rows).toOption.map content := by
  have admits : Table.admitRow name schema = Table.admitRow name schema' := by
    funext index row
    rw [Table.admitRow, Table.admitRow, Schema.width, Schema.width, same]
  rw [Table.ofRows, Table.ofRows, admits, toOption_bind, toOption_bind, Option.map_bind,
    Option.map_bind]
  refine congrArg (Option.bind _) (funext fun rows => ?_)
  exact congrArg (fun columns => some (name, columns, rows)) same

/-- Chains that differ in the keys of their sources give the same table up to its keys, or both
fail. -/
theorem Alike.run (alike : Alike chain chain') (built : chain.signature? = .ok known)
    (built' : chain'.signature? = .ok known') (inputs : Inputs) :
    (chain.run inputs).toOption.map content = (chain'.run inputs).toOption.map content := by
  have same := alike.signatures built built'
  have unwrap (result : Except TableError Table) :
      (result.mapError RunError.table).toOption = result.toOption := by
    cases result <;> rfl
  rw [Chain.run, Chain.run, toOption_bind, toOption_bind, alike.rows built built']
  cases (chain'.rows inputs).toOption with
  | none => rfl
  | some rows =>
    rw [Option.bind_some, Option.bind_some, unwrap, unwrap, schema, schema,
      signature_of_built built, signature_of_built built', same.name]
    exact content_ofRows known'.name same.columns rows

end Chain

end TablePipeline

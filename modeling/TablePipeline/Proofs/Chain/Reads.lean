import TablePipeline.Proofs.Chain.Steps

/-! # The columns that a step reads

A step looks cells up by position. The positions come from names, and a step that is checked names
columns that are there: so all names resolve, and every position is one of the row before the step.
Apart from the names, the only thing that can stop a step is a sum of integers that overflows.
-/

namespace TablePipeline

namespace Schema

variable {schema : Schema} {clause : Clause} {names : List String}

theorem position?_lt {name : String} {position : Nat}
    (placed : schema.position? name = some position) : position < schema.width :=
  (List.findIdx?_eq_some_iff_getElem.mp placed).1

/-- Columns that can be found in one clause are there. -/
theorem known_of_resolve {α : Type} (column : α → String) {items : List α} {positions : List Nat}
    (resolved : items.mapM (fun item => schema.resolve clause (column item)) = .ok positions)
    {item : α} (member : item ∈ items) : (schema.position? (column item)).isSome := by
  obtain ⟨position, _, found⟩ := exists_of_mem_left (mapM_eq_ok.mp resolved) member
  rw [resolve_eq_ok.mp found, Option.isSome_some]

theorem known_of_resolveColumn {columns : List Column}
    (resolved : names.mapM (schema.resolveColumn clause) = .ok columns) {name : String}
    (member : name ∈ names) : (schema.position? name).isSome := by
  obtain ⟨column, _, found⟩ := exists_of_mem_left (mapM_eq_ok.mp resolved) member
  rw [position?_isSome, resolveColumn_eq_ok.mp found, Option.isSome_some]

/-- Columns that are there have positions, which are positions of a row. -/
theorem positions_of_known (clause : Clause)
    (known : ∀ name ∈ names, (schema.position? name).isSome) :
    ∃ positions, schema.positions clause names = .ok positions ∧
      ∀ position ∈ positions, position < schema.width := by
  obtain ⟨positions, resolved⟩ : ∃ positions, names.mapM (schema.resolve clause) = .ok positions := by
    refine exists_mapM fun name member => ?_
    obtain ⟨position, placed⟩ := Option.isSome_iff_exists.mp (known name member)
    exact ⟨position, resolve_eq_ok.mpr placed⟩
  refine ⟨positions, mapError_eq_ok.mpr resolved, fun position member => ?_⟩
  obtain ⟨name, _, found⟩ := exists_of_mem_right (mapM_eq_ok.mp resolved) member
  exact position?_lt (resolve_eq_ok.mp found)

/-- Ordering keys whose columns are there have positions, which are positions of a row. -/
theorem orderKeys_of_known {keys : List OrderKey}
    (known : ∀ key ∈ keys, (schema.position? key.column).isSome) :
    ∃ bound, schema.orderKeys keys = .ok bound ∧ ∀ key ∈ bound, key.1 < schema.width := by
  have named : ∀ name ∈ keys.map (·.column), (schema.position? name).isSome := by
    intro name member
    obtain ⟨key, isKey, rfl⟩ := List.mem_map.mp member
    exact known key isKey
  obtain ⟨positions, resolved, inside⟩ := positions_of_known .orderBy named
  refine ⟨positions.zip keys, by rw [orderKeys, resolved]; rfl, fun key member => ?_⟩
  exact inside key.1 (List.of_mem_zip member).1

end Schema

namespace Expr

variable {schema : Schema}

mutual

/-- The positions in a bound expression are positions of a row. -/
theorem references_lt :
    ∀ (expr : Expr String) {bound : Expr Nat}, expr.bind schema = .ok bound →
      ∀ position ∈ bound.references, position < schema.width
  | column reference, bound, resolved, position, member => by
    simp only [bind, bind_eq_ok, pure_eq_ok, Schema.resolve_eq_ok] at resolved
    obtain ⟨found, placed, rfl⟩ := resolved
    rw [references, List.mem_singleton] at member
    exact member ▸ Schema.position?_lt placed
  | literal value, bound, resolved, position, member => by
    rw [bind, pure_eq_ok] at resolved
    subst resolved
    cases member
  | cast operand type, bound, resolved, position, member => by
    simp only [bind, bind_eq_ok, pure_eq_ok] at resolved
    obtain ⟨source, resolved, rfl⟩ := resolved
    exact references_lt operand resolved position member
  | binary op left right, bound, resolved, position, member => by
    simp only [bind, bind_eq_ok, pure_eq_ok] at resolved
    obtain ⟨boundLeft, leftResolved, boundRight, rightResolved, rfl⟩ := resolved
    rcases List.mem_append.mp member with member | member
    · exact references_lt left leftResolved position member
    · exact references_lt right rightResolved position member
  | unary op operand, bound, resolved, position, member => by
    simp only [bind, bind_eq_ok, pure_eq_ok] at resolved
    obtain ⟨source, resolved, rfl⟩ := resolved
    exact references_lt operand resolved position member
  | call function arguments, bound, resolved, position, member => by
    simp only [bind, bind_eq_ok, pure_eq_ok] at resolved
    obtain ⟨each, resolved, rfl⟩ := resolved
    exact referencesAll_lt arguments resolved position member

@[inherit_doc references_lt]
theorem referencesAll_lt :
    ∀ (arguments : List (Expr String)) {bound : List (Expr Nat)},
      bindAll schema arguments = .ok bound →
      ∀ position ∈ referencesAll bound, position < schema.width
  | [], bound, resolved, position, member => by
    cases resolved
    cases member
  | argument :: rest, bound, resolved, position, member => by
    simp only [bindAll, bind_eq_ok, pure_eq_ok] at resolved
    obtain ⟨first, firstResolved, others, othersResolved, rfl⟩ := resolved
    rcases List.mem_append.mp member with member | member
    · exact references_lt argument firstResolved position member
    · exact referencesAll_lt rest othersResolved position member

end

/-- An expression that has a type can be bound. -/
theorem bindExpr_of_infer {clause : Clause} {expr : Expr String} {type : ValueType}
    (typed : expr.infer schema clause = .ok type) :
    ∃ bound, bindExpr schema expr = .ok bound := by
  obtain ⟨bound, resolved⟩ := expr.bind_of_resolves (expr.resolves_of_infer typed)
  exact ⟨bound, mapError_eq_ok.mpr resolved⟩

end Expr

/-- The positions that a window function looks up in a row. -/
def BoundWindow.references : BoundWindow → List Nat
  | rowNumber | rank => []
  | lead argument _ | lag argument _ => argument.references

/-- The columns after a window function, each as a position in the row before it; the computed column
has none. -/
def windowItems (before after : Schema) (computed : String) :
    Except RunError (List (Option Nat)) :=
  after.names.mapM fun name =>
    if name = computed then return none
    else return some (← (before.resolve .window name).mapError .chain)

section Assignments

variable {schema after : Schema} {assignments : List (String × Expr String)}
  {columns : List Column} {bound : List (String × Expr Nat)}

/-- Assigned expressions that have types can be bound. -/
theorem bindAssignments_of_typed
    (typed : Signature.assignedColumns schema assignments = .ok columns) :
    ∃ bound, bindAssignments schema assignments = .ok bound := by
  refine exists_mapM fun assigned member => ?_
  obtain ⟨column, _, typed⟩ := exists_of_mem_left (mapM_eq_ok.mp typed) member
  obtain ⟨type, typed, _⟩ := bind_eq_ok.mp typed
  obtain ⟨expr, resolved⟩ := Expr.bindExpr_of_infer typed
  exact ⟨(assigned.1, expr), bind_eq_ok.mpr ⟨expr, resolved, rfl⟩⟩

/-- The positions in assigned expressions are positions of a row. -/
theorem bindAssignments_lt (resolved : bindAssignments schema assignments = .ok bound)
    {assigned : String × Expr Nat} (member : assigned ∈ bound) {position : Nat}
    (isRead : position ∈ assigned.2.references) : position < schema.width := by
  obtain ⟨written, _, result⟩ := exists_of_mem_right (mapM_eq_ok.mp resolved) member
  simp only [bind_eq_ok, pure_eq_ok, bindExpr, mapError_eq_ok] at result
  obtain ⟨expr, resolved, rfl⟩ := result
  exact written.2.references_lt resolved position isRead

/-- A name that is assigned has one expression, which has the type of its column; a name that is not
has neither an expression nor a column. -/
theorem lookup_assigned (typed : Signature.assignedColumns schema assignments = .ok columns)
    (resolved : bindAssignments schema assignments = .ok bound) (name : String) :
    (columns.find? (·.name = name) = none ∧ bound.lookup name = none) ∨
      ∃ written ∈ assignments, ∃ type expr, written.2.infer schema .mutate = .ok type ∧
        written.2.bind schema = .ok expr ∧
        columns.find? (·.name = name) = some (type.column name) ∧ bound.lookup name = some expr := by
  rw [Signature.assignedColumns, mapM_eq_ok] at typed
  rw [bindAssignments, mapM_eq_ok] at resolved
  induction typed generalizing bound with
  | nil =>
    cases resolved
    exact .inl ⟨rfl, rfl⟩
  | @cons written column rest columns typed others ih =>
    obtain ⟨assigned, more, first, othersResolved, rfl⟩ :=
      List.forall₂_cons_left_iff.mp resolved
    simp only [bind_eq_ok, pure_eq_ok, bindExpr, mapError_eq_ok] at typed first
    obtain ⟨type, typed, rfl⟩ := typed
    obtain ⟨expr, first, rfl⟩ := first
    by_cases same : (type.column written.1).name = name
    · right
      refine ⟨written, List.mem_cons_self .., type, expr, typed, first, ?_, ?_⟩
      · rw [List.find?_cons_of_pos (by simpa using same)]
        exact congrArg (some <| type.column ·) same
      · have sameName : (name == written.1) = true := beq_iff_eq.mpr same.symm
        rw [List.lookup_cons, sameName]
    · have otherName : (name == written.1) = false := beq_false_of_ne (Ne.symm same)
      rw [List.find?_cons_of_neg (by simpa using same), List.lookup_cons,
        otherName]
      rcases ih othersResolved with absent | ⟨found, member, present⟩
      · exact .inl absent
      · exact .inr ⟨found, List.mem_cons_of_mem _ member, present⟩

/-- Every column after an assignment is an assigned expression or a column of before. -/
theorem assignedItems_of_typed
    (typed : Signature.assignedColumns schema assignments = .ok columns)
    (resolved : bindAssignments schema assignments = .ok bound)
    (assigned : schema.assign columns = .ok after) :
    ∃ items, assignedItems schema after bound = .ok items := by
  refine exists_mapM fun name member => ?_
  obtain ⟨column, isColumn, rfl⟩ := List.mem_map.mp member
  rcases lookup_assigned typed resolved column.name with
    ⟨absent, noExpr⟩ | ⟨_, _, _, expr, _, _, _, found⟩
  · rcases Schema.mem_columns_assign assigned isColumn with found | ⟨_, known⟩
    · rw [absent] at found
      cases found
    · have isThere : (schema.position? column.name).isSome := by
        rw [Schema.position?_isSome, known, Option.isSome_some]
      obtain ⟨position, placed⟩ := Option.isSome_iff_exists.mp isThere
      refine ⟨.column position, ?_⟩
      simp only [noExpr, Schema.resolve_eq_ok.mpr placed]
      rfl
  · exact ⟨expr, by simp only [found]; rfl⟩

/-- The positions in the columns after an assignment are positions of a row. -/
theorem assignedItems_lt (resolved : bindAssignments schema assignments = .ok bound)
    {items : List (Expr Nat)} (found : assignedItems schema after bound = .ok items)
    {item : Expr Nat} (member : item ∈ items) {position : Nat}
    (isRead : position ∈ item.references) : position < schema.width := by
  obtain ⟨name, _, result⟩ := exists_of_mem_right (mapM_eq_ok.mp found) member
  split at result
  · rename_i expr isBound
    rw [pure_eq_ok] at result
    subst result
    obtain ⟨before, rest, split, _⟩ := List.lookup_eq_some_iff.mp isBound
    exact bindAssignments_lt resolved
      (split ▸ List.mem_append_right _ (List.mem_cons_self ..) : (name, expr) ∈ bound) isRead
  · simp only [bind_eq_ok, pure_eq_ok, mapError_eq_ok, Schema.resolve_eq_ok] at result
    obtain ⟨found, placed, rfl⟩ := result
    rw [Expr.references, List.mem_singleton] at isRead
    exact isRead ▸ Schema.position?_lt placed

end Assignments

section Windows

variable {schema after : Schema} {name : String}

/-- A window function that has a type can be bound, and its positions are positions of a row. -/
theorem bindWindow_of_infer {function : WindowFunction} {type : ValueType}
    (typed : function.infer schema = .ok type) :
    ∃ bound, function.bind schema = .ok bound ∧
      ∀ position ∈ bound.references, position < schema.width := by
  cases function with
  | rowNumber | rank => exact ⟨_, rfl, fun _ member => nomatch member⟩
  | lead argument offset | lag argument offset =>
    obtain ⟨_, typed, _⟩ := bind_eq_ok.mp typed
    obtain ⟨bound, resolved⟩ := argument.bind_of_resolves (argument.resolves_of_infer typed)
    exact ⟨_, bind_eq_ok.mpr ⟨bound, resolved, rfl⟩, argument.references_lt resolved⟩

/-- Every column after a window function is the computed one or a column of before. -/
theorem windowItems_of_assign {type : ValueType}
    (assigned : schema.assign [type.column name] = .ok after) :
    ∃ items, windowItems schema after name = .ok items ∧
      ∀ position, some position ∈ items → position < schema.width := by
  have each : ∀ entry ∈ after.names, ∃ item, (if entry = name then return none
      else return some (← (schema.resolve .window entry).mapError .chain) :
      Except RunError (Option Nat)) = .ok item := by
    intro entry member
    obtain ⟨column, isColumn, rfl⟩ := List.mem_map.mp member
    split
    · exact ⟨none, rfl⟩
    · rename_i other
      rcases Schema.mem_columns_assign assigned isColumn with found | ⟨_, known⟩
      · have isComputed := List.mem_singleton.mp (List.mem_of_find?_eq_some found)
        exact absurd (congrArg Column.name isComputed) other
      · have isThere : (schema.position? column.name).isSome := by
          rw [Schema.position?_isSome, known, Option.isSome_some]
        obtain ⟨position, placed⟩ := Option.isSome_iff_exists.mp isThere
        exact ⟨some position, by rw [Schema.resolve_eq_ok.mpr placed]; rfl⟩
  obtain ⟨items, found⟩ := exists_mapM each
  refine ⟨items, found, fun position member => ?_⟩
  obtain ⟨entry, _, result⟩ := exists_of_mem_right (mapM_eq_ok.mp found) member
  split at result
  · cases result
  · simp only [bind_eq_ok, pure_eq_ok, mapError_eq_ok, Schema.resolve_eq_ok] at result
    obtain ⟨_, placed, same⟩ := result
    cases same
    exact Schema.position?_lt placed

end Windows

section Aggregates

variable {before : Schema}

/-- The argument of an aggregate that has a type can be bound. -/
theorem bindArgument_of_infer {aggregate : Aggregate} {type : ValueType}
    (typed : aggregate.infer before = .ok type) :
    ∃ argument, aggregate.argument.mapM (bindExpr before) = .ok argument := by
  obtain ⟨function, written⟩ := aggregate
  cases written with
  | none => exact ⟨none, rfl⟩
  | some written =>
    simp only [Aggregate.infer, bind_eq_ok] at typed
    obtain ⟨_, typed, _⟩ := typed
    obtain ⟨bound, resolved⟩ := Expr.bindExpr_of_infer typed
    exact ⟨some bound, by rw [Option.mapM_some, resolved]; rfl⟩

/-- The positions in the argument of an aggregate are positions of a row. -/
theorem bindArgument_lt {written : Option (Expr String)} {argument : Option (Expr Nat)}
    (resolved : written.mapM (bindExpr before) = .ok argument) {position : Nat}
    (isRead : position ∈ (argument.map (·.references)).getD []) : position < before.width := by
  cases written with
  | none =>
    cases resolved
    cases isRead
  | some written =>
    simp only [Option.mapM_some, map_eq_pure_bind, bind_eq_ok, pure_eq_ok, bindExpr,
      mapError_eq_ok] at resolved
    obtain ⟨bound, resolved, rfl⟩ := resolved
    exact written.references_lt resolved position isRead

/-- Aggregates that have types can be bound, and their positions are positions of a row. -/
theorem bindAggregates_of_typed (after : Schema) (keyCount : Nat)
    {aggregates : List (String × Aggregate)} {columns : List Column}
    (typed : List.Forall₂ (fun assigned column => ∃ type : ValueType,
      assigned.2.infer before = .ok type ∧ type.column assigned.1 = column) aggregates columns) :
    ∃ bound, bindAggregates before after keyCount aggregates = .ok bound ∧
      ∀ aggregate ∈ bound, ∀ position ∈ (aggregate.argument.map (·.references)).getD [],
        position < before.width := by
  have each : ∀ assigned ∈ aggregates, ∃ result, (do
      let argument ← assigned.2.argument.mapM (bindExpr before)
      return (assigned.1, assigned.2.function, argument)) = Except.ok result := by
    intro assigned member
    obtain ⟨_, _, type, typed, _⟩ := exists_of_mem_left typed member
    obtain ⟨argument, resolved⟩ := bindArgument_of_infer typed
    exact ⟨_, bind_eq_ok.mpr ⟨argument, resolved, rfl⟩⟩
  obtain ⟨bound, resolved⟩ := exists_mapM each
  refine ⟨_, bind_eq_ok.mpr ⟨bound, resolved, rfl⟩, fun aggregate member position isRead => ?_⟩
  obtain ⟨⟨triple, column⟩, paired, rfl⟩ := List.mem_map.mp member
  obtain ⟨assigned, _, result⟩ :=
    exists_of_mem_right (mapM_eq_ok.mp resolved) (List.of_mem_zip paired).1
  simp only [bind_eq_ok, pure_eq_ok] at result
  obtain ⟨argument, resolved, rfl⟩ := result
  exact bindArgument_lt resolved isRead

/-- Is a bound aggregate what is written? -/
structure BoundAggregate.Binds (before : Schema) (assigned : String × Aggregate)
    (aggregate : BoundAggregate) : Prop where
  name : aggregate.name = assigned.1
  function : aggregate.function = assigned.2.function
  argument : assigned.2.argument.mapM (bindExpr before) = .ok aggregate.argument
  type : ∃ type, assigned.2.infer before = .ok type ∧ aggregate.type = type.type

/-- Every bound aggregate is the one that is written at its place: its type is that of the column that
stands there behind the keys. -/
theorem binds_of_bindAggregates {after : Schema} {aggregates : List (String × Aggregate)}
    {keys columns : List Column}
    (typed : List.Forall₂ (fun assigned column => ∃ type : ValueType,
      assigned.2.infer before = .ok type ∧ type.column assigned.1 = column) aggregates columns)
    (made : after.columns = keys ++ columns) {bound : List BoundAggregate}
    (resolved : bindAggregates before after keys.length aggregates = .ok bound) :
    List.Forall₂ (BoundAggregate.Binds before) aggregates bound := by
  simp only [bindAggregates, bind_eq_ok, pure_eq_ok, made, List.drop_left, mapM_eq_ok] at resolved
  obtain ⟨triples, resolved, rfl⟩ := resolved
  clear made
  induction typed generalizing triples with
  | nil =>
    cases resolved
    exact .nil
  | cons first _ ih =>
    obtain ⟨type, typed, rfl⟩ := first
    obtain ⟨_, triples, ⟨argument, isArgument, rfl⟩, others, rfl⟩ :=
      List.forall₂_cons_left_iff.mp resolved
    exact .cons ⟨rfl, rfl, isArgument, type, typed, rfl⟩ (ih triples others)

end Aggregates

namespace Verb

/-- The positions that an operation looks up in the rows before it. -/
def reads (before : Signature) (after : Schema) : Verb → Except RunError (List Nat)
  | groupBy _ | rename _ => return []
  | select columns => before.schema.positions .select columns
  | mutate assignments => do
    let bound ← bindAssignments before.schema assignments
    let items ← assignedItems before.schema after bound
    return bound.flatMap (·.2.references) ++ items.flatMap (·.references)
  | filter predicate => return (← bindExpr before.schema predicate).references
  | summarise aggregates => do
    let keys ← before.schema.positions .summarise before.groups
    let aggregates ← bindAggregates before.schema after keys.length aggregates
    return keys ++ aggregates.flatMap fun aggregate =>
      (aggregate.argument.map (·.references)).getD []
  | orderBy keys => return (← before.schema.orderKeys keys).map (·.1)
  | window added => do
    let partition ← before.schema.positions .window added.partitionBy
    let keys ← before.schema.orderKeys added.orderBy
    let function ← (added.function.bind before.schema).mapError .chain
    let items ← windowItems before.schema after added.name
    return partition ++ keys.map (·.1) ++ function.references ++ items.filterMap id

variable {before after : Signature} {verb : Verb}

/-- What a window function that was checked is bound to, at positions of a row. -/
theorem exists_window {added : Window} (applied : before.apply (.window added) = .ok after) :
    ∃ partition keys function items,
      before.schema.positions .window added.partitionBy = .ok partition ∧
      before.schema.orderKeys added.orderBy = .ok keys ∧
      added.function.bind before.schema = .ok function ∧
      windowItems before.schema after.schema added.name = .ok items ∧
      ∀ position ∈ partition ++ keys.map (·.1) ++ function.references ++ items.filterMap id,
        position < before.schema.width := by
  obtain ⟨⟨_, partsKnown⟩, ⟨_, keysKnown⟩, type, typed, assigned⟩ :=
    Signature.schema_of_window applied
  obtain ⟨parts, partsFound, insideParts⟩ := Schema.positions_of_known .window fun _ member =>
    Schema.known_of_resolve id partsKnown member
  obtain ⟨keys, keysFound, insideKeys⟩ := Schema.orderKeys_of_known fun _ member =>
    Schema.known_of_resolve OrderKey.column keysKnown member
  obtain ⟨function, bound, insideFunction⟩ := bindWindow_of_infer typed
  obtain ⟨items, itemsFound, insideItems⟩ := windowItems_of_assign assigned
  refine ⟨parts, keys, function, items, partsFound, keysFound, bound, itemsFound,
    fun position member => ?_⟩
  simp only [List.mem_append] at member
  rcases member with ((member | member) | member) | member
  · exact insideParts position member
  · obtain ⟨key, isKey, rfl⟩ := List.mem_map.mp member
    exact insideKeys key isKey
  · exact insideFunction position member
  · obtain ⟨item, isItem, same⟩ := List.mem_filterMap.mp member
    exact insideItems position (same ▸ isItem)

/-- What an operation that was checked looks up is there. -/
theorem exists_reads (applied : before.apply verb = .ok after) :
    ∃ positions, verb.reads before after.schema = .ok positions ∧
      ∀ position ∈ positions, position < before.schema.width := by
  cases verb with
  | groupBy | rename => exact ⟨[], rfl, fun _ member => nomatch member⟩
  | select columns =>
    have selected := Signature.schema_of_select applied
    obtain ⟨_, known, _⟩ := bind_eq_ok.mp selected
    exact Schema.positions_of_known .select fun _ => Schema.known_of_resolveColumn known
  | mutate assignments =>
    obtain ⟨_, _, columns, typed, schema, assigned, rfl⟩ := Signature.apply_mutate.mp applied
    obtain ⟨bound, resolved⟩ := bindAssignments_of_typed typed
    obtain ⟨items, found⟩ := assignedItems_of_typed typed resolved assigned
    refine ⟨_, bind_eq_ok.mpr ⟨bound, resolved, bind_eq_ok.mpr ⟨items, found, rfl⟩⟩, ?_⟩
    intro position member
    rcases List.mem_append.mp member with member | member
    · obtain ⟨assigned, isBound, isRead⟩ := List.mem_flatMap.mp member
      exact bindAssignments_lt resolved isBound isRead
    · obtain ⟨item, isItem, isRead⟩ := List.mem_flatMap.mp member
      exact assignedItems_lt resolved found isItem isRead
  | filter predicate =>
    obtain ⟨_, ⟨type, typed, _⟩, rfl⟩ := Signature.apply_filter.mp applied
    obtain ⟨bound, resolved⟩ := Expr.bindExpr_of_infer typed
    exact ⟨_, bind_eq_ok.mpr ⟨bound, resolved, rfl⟩,
      predicate.references_lt (mapError_eq_ok.mp resolved)⟩
  | summarise aggregates =>
    obtain ⟨keys, values, known, typed, _⟩ :=
      Signature.columns_of_summarise (Signature.schema_of_summarise applied)
    obtain ⟨positions, found, inside⟩ := Schema.positions_of_known .summarise
      fun _ => Schema.known_of_resolveColumn known
    obtain ⟨bound, resolved, insideArguments⟩ :=
      bindAggregates_of_typed after.schema positions.length typed
    refine ⟨_, bind_eq_ok.mpr ⟨positions, found, bind_eq_ok.mpr ⟨bound, resolved, rfl⟩⟩, ?_⟩
    intro position member
    rcases List.mem_append.mp member with member | member
    · exact inside position member
    · obtain ⟨aggregate, isBound, isRead⟩ := List.mem_flatMap.mp member
      exact insideArguments aggregate isBound position isRead
  | orderBy keys =>
    obtain ⟨_, _, ⟨positions, known⟩, rfl⟩ := Signature.apply_orderBy.mp applied
    obtain ⟨bound, found, inside⟩ := Schema.orderKeys_of_known fun _ member =>
      Schema.known_of_resolve OrderKey.column known member
    refine ⟨_, bind_eq_ok.mpr ⟨bound, found, rfl⟩, fun position member => ?_⟩
    obtain ⟨key, isKey, rfl⟩ := List.mem_map.mp member
    exact inside key isKey
  | window added =>
    obtain ⟨parts, keys, function, items, partsFound, keysFound, bound, itemsFound, inside⟩ :=
      exists_window applied
    exact ⟨_, by simp only [reads, partsFound, keysFound, bound, itemsFound, ok_bind,
      Except.mapError]; rfl, inside⟩

/-- The row of a group has all its values, unless a sum overflows. -/
theorem summaryRow_overflow (keys : List Nat) (aggregates : List BoundAggregate)
    (group : List Row) :
    (∃ row, summaryRow keys aggregates group = .ok row) ∨
      ∃ column, summaryRow keys aggregates group = .error (.integerOverflow column) := by
  refine bind_ok_or (mapM_ok_or fun aggregate _ => ?_) fun values _ => .inl ⟨_, rfl⟩
  split
  · exact .inl ⟨_, rfl⟩
  · exact .inr ⟨_, rfl⟩

/-- Where all names resolve, nothing but a sum that overflows stops an operation. -/
theorem rows_of_reads {after : Schema} {positions : List Nat}
    (read : verb.reads before after = .ok positions) (rows : List Row) :
    (∃ result, verb.rows before after rows = .ok result) ∨
      ∃ column, verb.rows before after rows = .error (.integerOverflow column) := by
  cases verb with
  | groupBy | rename => exact .inl ⟨rows, rfl⟩
  | select columns =>
    exact .inl ⟨_, bind_eq_ok.mpr ⟨positions, read, rfl⟩⟩
  | mutate assignments =>
    simp only [reads, bind_eq_ok] at read
    obtain ⟨bound, resolved, items, found, _⟩ := read
    exact .inl ⟨_, by simp only [Verb.rows, resolved, found, ok_bind]; rfl⟩
  | filter predicate =>
    obtain ⟨bound, resolved, _⟩ := bind_eq_ok.mp read
    exact .inl ⟨_, by simp only [Verb.rows, resolved, ok_bind]; rfl⟩
  | summarise aggregates =>
    simp only [reads, bind_eq_ok] at read
    obtain ⟨keys, keysFound, bound, resolved, _⟩ := read
    simp only [Verb.rows, keysFound, resolved, ok_bind]
    exact mapM_ok_or fun group _ => summaryRow_overflow keys bound group
  | orderBy keys =>
    obtain ⟨bound, resolved, _⟩ := bind_eq_ok.mp read
    exact .inl ⟨_, by simp only [Verb.rows, resolved, ok_bind]; rfl⟩
  | window added =>
    simp only [reads, bind_eq_ok] at read
    obtain ⟨parts, partsFound, keys, keysFound, function, bound, items, found, _⟩ := read
    rw [windowItems] at found
    exact .inl ⟨_, by simp only [Verb.rows, partsFound, keysFound, bound, found, ok_bind]; rfl⟩

end Verb

end TablePipeline

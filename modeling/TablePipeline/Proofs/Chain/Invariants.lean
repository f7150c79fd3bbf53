import TablePipeline.Proofs.Chain.Keys
import TablePipeline.Proofs.Chain.NormalForm
import TablePipeline.Proofs.Dictionary

/-! # What holds of the schemas of a chain

The schemas of sources are declared: columns of different names, and then keys over them. Every step
checks or rebuilds the schema in its own way, and keys are positions that it has to move along. What
is declared stays true all the same: names are different, keys consist of positions of columns, and
the columns of the primary key are not null. Of every join its layout is known as well: it leaves out
a right column that is paired with a left one of its name and the left columns whose names are taken,
so that no name comes twice.
-/

namespace TablePipeline

/-- A list whose elements are different has no first repeated one. -/
theorem firstRepeated?_eq_none {α : Type} [DecidableEq α] {seen items : List α}
    (distinct : items.Nodup) (fresh : ∀ item ∈ items, item ∉ seen) :
    firstRepeated? seen items = none := by
  induction items generalizing seen with
  | nil => rfl
  | cons item rest ih =>
    obtain ⟨first, others⟩ := List.nodup_cons.mp distinct
    rw [firstRepeated?, if_neg (fresh item (List.mem_cons_self ..))]
    refine ih others fun other member isSeen => ?_
    rcases List.mem_cons.mp isSeen with rfl | isSeen
    · exact first member
    · exact fresh other (List.mem_cons_of_mem _ member) isSeen

/-- Columns of different names make a schema. -/
theorem schemaOf_of_nodup {columns : List Column} (distinct : (columns.map (·.name)).Nodup) :
    schemaOf columns = .ok { columns } := by
  rw [schemaOf, Schema.ofColumns, firstRepeated?_eq_none distinct fun _ _ => List.not_mem_nil]

namespace Dictionary

variable {ν : Type} {dictionary : Dictionary String ν} {name : String} {value : ν}

/-- In a dictionary in the order of its names, every entry is found. -/
theorem Sorted.find?_eq_some_iff (sorted : dictionary.Sorted) :
    (name, value) ∈ dictionary.entries ↔ dictionary.find? name = some value := by
  refine ⟨fun member => ?_, mem_of_find?⟩
  obtain ⟨entries⟩ := dictionary
  simp only [Sorted, find?] at sorted member ⊢
  induction entries with
  | nil => cases member
  | cons head rest ih =>
    obtain ⟨least, sorted⟩ := List.pairwise_cons.mp sorted
    rcases List.mem_cons.mp member with rfl | member
    · simp
    · have other : head.1 ≠ name := fun same => String.lt_irrefl _ (same ▸ least _ member)
      rw [List.find?_cons_of_neg (by simpa using other)]
      exact ih sorted member

end Dictionary

namespace Schema

variable {schema source after left right joined : Schema} {names : List String} {kind : JoinKind}
  {pairs : List (String × String)} {index : Nat} {column : Column}

/-- The schemas that can be declared: columns, and then keys over them. -/
inductive Declared : Schema → Prop where
  | columns {columns : List Column} {schema : Schema} (made : ofColumns columns = .ok schema) :
      Declared schema
  | primaryKey {schema next : Schema} {names : List String} (declared : Declared schema)
      (made : schema.withPrimaryKey names = .ok next) : Declared next
  | uniqueKey {schema next : Schema} {names : List String} (declared : Declared schema)
      (made : schema.withUniqueKey names = .ok next) : Declared next

/-- Is a schema well formed, and are the columns of its primary key not null? -/
structure Coherent (schema : Schema) : Prop extends Formed schema where
  required : ∀ position ∈ schema.primaryKey, ∀ column,
    schema.columns[position]? = some column → column.nullable = false

/-! ## Declared schemas -/

/-- Without a primary key, no column has to be there. -/
theorem Formed.coherent (formed : schema.Formed) (none : schema.primaryKey = []) :
    schema.Coherent := by
  refine ⟨formed, fun position member => ?_⟩
  rw [none] at member
  cases member

theorem coherent_of_schemaOf {columns : List Column} (made : schemaOf columns = .ok schema) :
    schema.Coherent := by
  refine (formed_of_schemaOf made).coherent ?_
  rw [(of_ofColumns (ofColumns_of_schemaOf made)).1]

theorem Coherent.withUniqueKey (coherent : schema.Coherent)
    (made : schema.withUniqueKey names = .ok after) : after.Coherent := by
  have formed := coherent.toFormed.withUniqueKey made
  obtain ⟨_, _, made⟩ := bind_eq_ok.mp made
  cases made
  exact ⟨formed, coherent.required⟩

/-- A primary key makes its columns not null, whatever they were. -/
theorem Coherent.withPrimaryKey (coherent : schema.Coherent)
    (made : schema.withPrimaryKey names = .ok after) : after.Coherent := by
  have formed := coherent.toFormed.withPrimaryKey made
  obtain ⟨key, _, made⟩ := bind_eq_ok.mp made
  cases made
  refine ⟨formed, fun position inKey column here => ?_⟩
  simp only [List.getElem?_mapIdx, Option.map_eq_some_iff] at here
  obtain ⟨old, _, rfl⟩ := here
  rw [if_pos inKey]

theorem Declared.coherent (declared : schema.Declared) : schema.Coherent := by
  induction declared with
  | columns made =>
    refine (formed_of_ofColumns made).coherent ?_
    rw [(of_ofColumns made).1]
  | primaryKey _ made ih => exact ih.withPrimaryKey made
  | uniqueKey _ made ih => exact ih.withUniqueKey made

/-! ## Keys that are kept -/

/-- The positions of a primary key that is kept are old ones that were moved. -/
theorem exists_of_mem_primaryKey_retainKeys {moved : Nat → Option Nat} {place : Nat}
    (member : place ∈ (schema.retainKeys source moved).primaryKey) :
    ∃ position ∈ source.primaryKey, moved position = some place := by
  replace member : place ∈ (source.primaryKey.mapM moved).getD [] := member
  cases found : source.primaryKey.mapM moved with
  | none => simp [found] at member
  | some places =>
    rw [found] at member
    exact exists_of_mem_right (mapM_eq_some.mp found) member

theorem Coherent.lt_width (coherent : schema.Coherent) {position : Nat}
    (member : position ∈ schema.primaryKey) : position < schema.width :=
  coherent.keys _ (mem_keys.mpr (.inl ⟨rfl, List.ne_nil_of_mem member⟩)) position member

/-- Keys that are kept stay sound where a column that is moved admits null only if it did before. -/
theorem Coherent.retainKeys {moved : Nat → Option Nat} (coherent : source.Coherent)
    (formed : (schema.retainKeys source moved).Formed)
    (carries : ∀ position < source.width, ∀ place, moved position = some place →
      schema.columns[place]? = source.columns[position]?) :
    (schema.retainKeys source moved).Coherent := by
  refine ⟨formed, fun place member column here => ?_⟩
  obtain ⟨position, inKey, isMoved⟩ := exists_of_mem_primaryKey_retainKeys member
  have same := carries position (coherent.lt_width inKey) place isMoved
  exact coherent.required position inKey column (same ▸ here)

theorem Coherent.select (coherent : source.Coherent) (made : source.select names = .ok after) :
    after.Coherent := by
  have formed := formed_select coherent.toFormed made
  simp only [Schema.select, bind_eq_ok, pure_eq_ok] at made
  obtain ⟨columns, found, result, listed, rfl⟩ := made
  refine coherent.retainKeys formed fun position inside place moved => ?_
  obtain ⟨column, here, resolved⟩ :=
    exists_getElem?_of_forall₂ (mapM_eq_ok.mp found) (getElem?_of_findIdx? moved)
  rw [columns_of_schemaOf listed, here, ← resolveColumn_eq_ok.mp resolved,
    column?_eq_getElem? (position?_nameAt coherent.toFormed inside)]

theorem Coherent.assign {columns : List Column} (coherent : source.Coherent)
    (made : source.assign columns = .ok after) : after.Coherent := by
  have formed := formed_assign coherent.toFormed made
  simp only [Schema.assign, bind_eq_ok, pure_eq_ok] at made
  obtain ⟨result, listed, rfl⟩ := made
  refine coherent.retainKeys formed fun position inside place moved => ?_
  split at moved
  · cases moved
  · rename_i kept
    cases moved
    have here : source.columns[position]? = some source.columns[position] :=
      List.getElem?_eq_getElem inside
    have unassigned : columns.find? (·.name = source.columns[position].name) = none := by
      rw [List.find?_eq_none]
      intro column member same
      rw [nameAt_of_getElem? here] at kept
      exact kept (List.mem_map.mpr ⟨column, member, of_decide_eq_true same⟩)
    rw [columns_of_schemaOf listed, List.getElem?_append_left (by rwa [List.length_map]),
      List.getElem?_map, here, Option.map_some, unassigned, Option.getD_none]

theorem Coherent.join (coherent : left.Coherent) (made : left.join right kind pairs = .ok joined) :
    joined.Coherent := by
  have formed := formed_join coherent.toFormed made
  have laidOut := forall₂_joinLayout made
  obtain ⟨_, _, _, result, listed, rfl⟩ := join_eq_ok.mp made
  split
  · rename_i covers
    rw [if_pos covers] at formed laidOut
    refine coherent.retainKeys formed fun position _ place moved => ?_
    obtain ⟨column, here, isColumn⟩ :=
      exists_getElem?_of_forall₂ laidOut (getElem?_joinLayout moved)
    exact here.trans isColumn.symm
  · exact coherent_of_schemaOf listed

/-! ## Layouts -/

/-- The column that an entry of a layout names on its side. -/
def origin? (left right : Schema) (entry : JoinColumn) : Option Column :=
  match entry.side with
  | .left => left.columns[entry.index]?
  | .right => right.columns[entry.index]?

/-- What the layout of a join says about its columns. -/
structure LaidOut (left right joined : Schema) (pairs : List (String × String))
    (layout : List JoinColumn) : Prop where
  /-- There is one entry for each column, and it names a column of the same name and type. -/
  entries : List.Forall₂ (fun entry column => ∃ origin, origin? left right entry = some origin ∧
    origin.name = column.name ∧ origin.type = column.type) layout joined.columns
  /-- A right column is left out exactly if it is paired with a left one of its name. -/
  rights : ∀ {index : Nat} {column : Column}, right.columns[index]? = some column →
    (⟨.right, index⟩ ∈ layout ↔ (column.name, column.name) ∉ pairs)
  /-- A left column is left out exactly if its name is that of a right one that is not. -/
  lefts : ∀ {index : Nat} {column : Column}, left.columns[index]? = some column →
    (⟨.left, index⟩ ∈ layout ↔ ∀ {place : Nat} {other : Column}, ⟨.right, place⟩ ∈ layout →
      right.columns[place]? = some other → other.name ≠ column.name)

theorem lt_width_of_getElem? (here : schema.columns[index]? = some column) :
    index < schema.width :=
  (List.getElem?_eq_some_iff.mp here).1

/-- A right column is in the layout unless a pair shares its name. -/
theorem right_mem_joinLayout (distinct : right.names.Nodup)
    (here : right.columns[index]? = some column) :
    ⟨.right, index⟩ ∈ joinLayout left right pairs ↔ (column.name, column.name) ∉ pairs := by
  have inside := lt_width_of_getElem? here
  have named : right.names[index]? = some column.name := by
    rw [Schema.names, List.getElem?_map, here, Option.map_some]
  have placed : ∀ name, right.position? name = some index ↔ name = column.name := by
    refine fun name => ⟨fun found => ?_, fun same => same ▸ position?_of_getElem? distinct named⟩
    exact Option.some.inj ((getElem?_of_position? found).symm.trans named)
  have shared : (∀ name, (name, name) ∈ pairs → ¬ name = column.name) ↔
      (column.name, column.name) ∉ pairs :=
    ⟨fun others paired => others _ paired rfl, fun free name paired same => free (same ▸ paired)⟩
  simpa [joinLayout, inside, placed] using shared

/-- A left column is in the layout unless a right column in it has its name. -/
theorem left_mem_joinLayout (here : left.columns[index]? = some column) :
    ⟨.left, index⟩ ∈ joinLayout left right pairs ↔
      ∀ {place : Nat} {other : Column}, ⟨.right, place⟩ ∈ joinLayout left right pairs →
        right.columns[place]? = some other → other.name ≠ column.name := by
  have inside := lt_width_of_getElem? here
  simp only [joinLayout, List.mem_append, List.mem_map, JoinColumn.mk.injEq, true_and,
    exists_eq_right, reduceCtorEq, false_and, and_false, exists_false, or_false, false_or,
    List.mem_filter, List.mem_range, decide_eq_true_iff, nameAt_of_getElem? here, inside,
    not_exists, not_and]
  constructor
  · intro free place other isRight isOther
    exact fun same => free place isRight ((nameAt_of_getElem? isOther).trans same)
  · intro free place isRight same
    obtain ⟨other, isOther⟩ : ∃ other, right.columns[place]? = some other :=
      ⟨_, List.getElem?_eq_getElem isRight.1⟩
    exact free isRight isOther ((nameAt_of_getElem? isOther).symm.trans same)

/-- The columns of a join have the names and types of the columns that they come from. -/
theorem laidOut_of_join (distinct : right.names.Nodup)
    (made : left.join right kind pairs = .ok joined) :
    LaidOut left right joined pairs (joinLayout left right pairs) := by
  refine ⟨(forall₂_joinLayout made).imp fun entry column isColumn => ?_,
    right_mem_joinLayout distinct, left_mem_joinLayout⟩
  obtain ⟨side, index⟩ := entry
  cases side with
  | left => exact ⟨column, isColumn, rfl, rfl⟩
  | right =>
    obtain ⟨origin, isOrigin, rfl⟩ := Option.map_eq_some_iff.mp isColumn
    exact ⟨origin, isOrigin, rfl, rfl⟩

/-! ## Joins repeat no name -/

/-- Columns at different positions have different names. -/
theorem name_ne_of_getElem? (distinct : schema.names.Nodup) {place : Nat} {other : Column}
    (here : schema.columns[index]? = some column) (there : schema.columns[place]? = some other)
    (different : index ≠ place) : column.name ≠ other.name := by
  intro same
  have named : schema.names[index]? = some column.name := by
    rw [Schema.names, List.getElem?_map, here, Option.map_some]
  have alsoNamed : schema.names[place]? = some column.name := by
    rw [Schema.names, List.getElem?_map, there, Option.map_some, same]
  have first := position?_of_getElem? distinct named
  rw [position?_of_getElem? distinct alsoNamed] at first
  exact different (Option.some.inj first).symm

/-- The columns of a layout have different names. -/
theorem nodup_names_joinLayout (leftDistinct : left.names.Nodup) (rightDistinct : right.names.Nodup) :
    (((joinLayout left right pairs).filterMap (joinColumn? left right kind)).map
      (·.name)).Nodup := by
  have differ (columns : List Nat) (kept : Nat → Bool) (width : Nat)
      (isRange : columns = (List.range width).filter kept) : columns.Pairwise (· ≠ ·) :=
    isRange ▸ List.nodup_range.filter _
  rw [List.Nodup, List.pairwise_map, List.pairwise_filterMap, joinLayout, List.pairwise_append,
    List.pairwise_map, List.pairwise_map]
  refine ⟨(differ _ _ _ rfl).imp ?_, (differ _ _ _ rfl).imp ?_, ?_⟩
  · intro index place different column here other there
    exact name_ne_of_getElem? leftDistinct here there different
  · intro index place different column here other there
    obtain ⟨origin, isOrigin, rfl⟩ := Option.map_eq_some_iff.mp here
    obtain ⟨otherOrigin, isOther, rfl⟩ := Option.map_eq_some_iff.mp there
    have differs : origin.name ≠ otherOrigin.name :=
      name_ne_of_getElem? rightDistinct isOrigin isOther different
    exact differs
  · intro entry isLeft other isRight column here otherColumn there same
    obtain ⟨index, free, rfl⟩ := List.mem_map.mp isLeft
    obtain ⟨place, isEmitted, rfl⟩ := List.mem_map.mp isRight
    obtain ⟨origin, isOrigin, rfl⟩ := Option.map_eq_some_iff.mp there
    have taken := of_decide_eq_true (List.mem_filter.mp free).2
    rw [nameAt_of_getElem? here] at taken
    refine taken (List.mem_map.mpr ⟨place, isEmitted, ?_⟩)
    exact (nameAt_of_getElem? isOrigin).trans same.symm

/-- Pairs of a join are refused for a column that is not there or a type that does not fit. -/
theorem checkPairs_ne_duplicateColumn (name : String) :
    checkPairs left right pairs ≠ .error (.duplicateColumn name) := by
  have resolved {schema : Schema} {other : String} :
      schema.resolveColumn .join other ≠ .error (.duplicateColumn name) := by
    unfold resolveColumn
    split <;> nofun
  induction pairs with
  | nil => nofun
  | cons pair rest ih =>
    intro refused
    simp only [checkPairs, bind_eq_error] at refused
    rcases refused with missing | ⟨_, _, missing | ⟨_, _, refused⟩⟩
    · exact resolved missing
    · exact resolved missing
    · split at refused
      · exact ih refused
      · cases refused

/-- A join of schemas whose names are different is never refused for a repeated name. -/
theorem join_ne_duplicateColumn (leftDistinct : left.names.Nodup)
    (rightDistinct : right.names.Nodup) (name : String) :
    left.join right kind pairs ≠ .error (.duplicateColumn name) := by
  intro refused
  simp only [join, throw_bind, schemaOf_of_nodup (nodup_names_joinLayout leftDistinct rightDistinct),
    ok_bind] at refused
  split at refused
  · cases refused
  · rcases bind_eq_error.mp refused with pairsRefused | ⟨_, _, refused⟩
    · exact checkPairs_ne_duplicateColumn name pairsRefused
    · split at refused
      · cases refused
      · split at refused <;> cases refused

end Schema

namespace Signature

variable {before after left right : Signature}

/-- What is known after a step, where the schema is sound and the groups are columns of it. -/
structure Coherent (signature : Signature) : Prop where
  schema : signature.schema.Coherent
  groups : ∀ name ∈ signature.groups, (signature.schema.position? name).isSome

/-- Without groups, a sound schema is all that is asked for. -/
theorem Coherent.of_schema (coherent : after.schema.Coherent) (ungrouped : after.groups = []) :
    after.Coherent := by
  refine ⟨coherent, fun name member => ?_⟩
  rw [ungrouped] at member
  cases member

/-- The schema of a summary is sound; it has no primary key. -/
theorem coherent_summarise {aggregates : List (String × Aggregate)} {schema : Schema}
    (summarised : before.summarise aggregates = .ok schema) : schema.Coherent := by
  have formed := (keys_of_summarise summarised).1
  simp only [summarise, bind_eq_ok] at summarised
  obtain ⟨_, _, _, _, _, _, listed, made, result⟩ := summarised
  have coherent := Schema.coherent_of_schemaOf made
  split at result
  · exact pure_eq_ok.mp result ▸ coherent
  · exact coherent.withUniqueKey (mapError_eq_ok.mp result)

/-- Every operation keeps the schema sound and the groups among its columns. -/
theorem Coherent.apply {verb : Verb} (coherent : before.Coherent)
    (applied : before.apply verb = .ok after) : after.Coherent := by
  cases verb with
  | select columns =>
    refine .of_schema (coherent.schema.select (schema_of_select applied)) ?_
    simp only [Signature.apply, throw_bind, guard_eq_ok, bind_eq_ok, pure_eq_ok] at applied
    obtain ⟨_, _, _, _, _, _, rfl⟩ := applied
    rfl
  | mutate assignments =>
    obtain ⟨ungrouped, _, columns, _, schema, made, rfl⟩ := apply_mutate.mp applied
    exact .of_schema (coherent.schema.assign made) ungrouped
  | filter predicate =>
    obtain ⟨_, _, rfl⟩ := apply_filter.mp applied
    exact coherent
  | groupBy columns =>
    simp only [Signature.apply, throw_bind, guard_eq_ok, bind_eq_ok, pure_eq_ok] at applied
    obtain ⟨_, _, _, positions, known, rfl⟩ := applied
    refine ⟨coherent.schema, fun name member => ?_⟩
    obtain ⟨position, _, resolved⟩ := exists_of_mem_left (mapM_eq_ok.mp known) member
    exact Option.isSome_iff_exists.mpr ⟨position, Schema.resolve_eq_ok.mp resolved⟩
  | summarise aggregates =>
    refine .of_schema (coherent_summarise (schema_of_summarise applied)) ?_
    simp only [Signature.apply, throw_bind, guard_eq_ok, bind_eq_ok, pure_eq_ok] at applied
    obtain ⟨_, _, _, rfl⟩ := applied
    rfl
  | orderBy keys =>
    obtain ⟨_, _, _, rfl⟩ := apply_orderBy.mp applied
    exact coherent
  | window added =>
    obtain ⟨_, _, _, _, made⟩ := schema_of_window applied
    refine .of_schema (coherent.schema.assign made) ?_
    simp only [Signature.apply, throw_bind, guard_eq_ok, bind_eq_ok, pure_eq_ok] at applied
    obtain ⟨_, _, _, _, _, _, _, _, _, _, rfl⟩ := applied
    rfl
  | rename name =>
    simp only [Signature.apply, throw_bind, guard_eq_ok, pure_eq_ok] at applied
    obtain ⟨_, rfl⟩ := applied
    exact ⟨coherent.schema, coherent.groups⟩

theorem Coherent.join {kind : JoinKind} {pairs : List (String × String)} (coherent : left.Coherent)
    (made : left.join right kind pairs = .ok after) : after.Coherent := by
  obtain ⟨_, schema, joined, _, _, rfl⟩ := join_eq_ok.mp made
  exact .of_schema (coherent.schema.join joined) rfl

/-! ## Sources -/

/-- Merged sources are in the order of their names. -/
theorem sorted_mergeSources {sources merged : Dictionary String Schema} (sorted : sources.Sorted)
    {entries : List (String × Schema)} (made : mergeSources sources entries = .ok merged) :
    merged.Sorted := by
  induction entries generalizing sources with
  | nil =>
    cases made
    exact sorted
  | cons entry rest ih =>
    rcases mergeSources_cons made with ⟨_, made⟩ | ⟨_, made⟩
    · exact ih sorted made
    · exact ih (sorted.insertNamed _ _) made

/-- Sources are refused for a conflict alone. -/
theorem mergeSources_ne_duplicateColumn {sources : Dictionary String Schema}
    {entries : List (String × Schema)} (name : String) :
    mergeSources sources entries ≠ .error (.duplicateColumn name) := by
  intro refused
  induction entries generalizing sources with
  | nil => cases refused
  | cons entry rest ih =>
    rw [mergeSources] at refused
    split at refused
    · split at refused
      · exact ih refused
      · cases refused
    · exact ih refused

/-- No operation reads another source. -/
theorem sources_of_apply {verb : Verb} (applied : before.apply verb = .ok after) :
    after.sources = before.sources := by
  unfold Signature.apply at applied
  cases verb <;> simp only [throw_bind, guard_eq_ok, bind_eq_ok, pure_eq_ok] at applied <;> grind

end Signature

namespace Chain

variable {chain right : Chain} {signature known : Signature}

/-- The sources of a built chain are in the order of their names. -/
theorem sorted_sources (built : chain.signature? = .ok signature) : signature.sources.Sorted := by
  induction chain generalizing signature with
  | source name schema =>
    cases built
    exact List.pairwise_singleton _ _
  | apply input verb ih =>
    obtain ⟨before, inputBuilt, applied⟩ := bind_eq_ok.mp built
    rw [Signature.sources_of_apply applied]
    exact ih inputBuilt
  | join input right kind pairs ihLeft _ =>
    obtain ⟨left, leftBuilt, built⟩ := bind_eq_ok.mp built
    obtain ⟨_, _, joined⟩ := bind_eq_ok.mp built
    obtain ⟨_, _, _, _, merged, rfl⟩ := Signature.join_eq_ok.mp joined
    exact Signature.sorted_mergeSources (ihLeft leftBuilt) merged

/-- The sources of a chain are those at which it or a chain that it joins starts. -/
theorem source_mem_parts (built : chain.signature? = .ok signature) {name : String}
    {schema : Schema} :
    source name schema ∈ chain.parts ↔ signature.sources.find? name = some schema := by
  induction chain generalizing signature with
  | source other known =>
    cases built
    simp [parts, Signature.ofSource, Dictionary.find?, eq_comm]
  | apply input verb ih =>
    obtain ⟨before, inputBuilt, applied⟩ := bind_eq_ok.mp built
    rw [Signature.sources_of_apply applied, ← ih inputBuilt]
    simp [parts]
  | join input right kind pairs ihLeft ihRight =>
    obtain ⟨left, leftBuilt, built⟩ := bind_eq_ok.mp built
    obtain ⟨beside, rightBuilt, joined⟩ := bind_eq_ok.mp built
    obtain ⟨_, _, _, _, merged, rfl⟩ := Signature.join_eq_ok.mp joined
    rw [Signature.find?_mergeSources merged, ← ihLeft leftBuilt,
      (sorted_sources rightBuilt).find?_eq_some_iff, ← ihRight rightBuilt]
    simp [parts]

/-- What holds at a step of a chain. -/
structure Coherent (chain : Chain) : Prop where
  /-- Names are different, keys are positions of columns, and no column of the primary key is
  nullable. -/
  schema : chain.schema.Coherent
  /-- The active groups are columns. -/
  groups : ∀ name ∈ chain.signature.groups, (chain.schema.position? name).isSome
  /-- The sources are those at which the chain or a chain that it joins starts. -/
  sources : ∀ {name : String} {schema : Schema},
    source name schema ∈ chain.parts ↔ chain.signature.sources.find? name = some schema
  /-- A join has its columns from where the layout says. -/
  layout : ∀ {input right : Chain} {kind : JoinKind} {pairs : List (String × String)},
    chain = join input right kind pairs → Schema.LaidOut input.schema right.schema chain.schema pairs
      (Schema.joinLayout input.schema right.schema pairs)

/-- Are the schemas of all sources declared? -/
def SourcesDeclared (chain : Chain) : Prop :=
  ∀ {name : String} {schema : Schema}, source name schema ∈ chain.parts → schema.Declared

theorem mem_parts_self (chain : Chain) : chain ∈ chain.parts := by
  cases chain <;> exact List.mem_cons_self ..

/-- What is known after the last step of a chain over declared sources. -/
theorem signature_coherent (built : chain.signature? = .ok signature)
    (declared : chain.SourcesDeclared) : signature.Coherent := by
  induction chain generalizing signature with
  | source name schema =>
    have coherent := (declared (mem_parts_self _)).coherent
    cases built
    exact .of_schema coherent rfl
  | apply input verb ih =>
    obtain ⟨before, inputBuilt, applied⟩ := bind_eq_ok.mp built
    have inputDeclared : input.SourcesDeclared := fun member =>
      declared (List.mem_cons_of_mem _ member)
    exact (ih inputBuilt inputDeclared).apply applied
  | join input right kind pairs ihLeft _ =>
    obtain ⟨left, leftBuilt, built⟩ := bind_eq_ok.mp built
    obtain ⟨_, _, joined⟩ := bind_eq_ok.mp built
    have leftDeclared : input.SourcesDeclared := fun member =>
      declared (List.mem_cons_of_mem _ (List.mem_append_left _ member))
    exact (ihLeft leftBuilt leftDeclared).join joined

/-- Every step of a built chain is a built chain over the same sources. -/
theorem built_of_mem_parts (built : chain.signature? = .ok signature) {part : Chain}
    (member : part ∈ chain.parts) :
    (∃ known, part.signature? = .ok known) ∧ part.parts ⊆ chain.parts := by
  induction chain generalizing signature with
  | source name schema =>
    cases List.mem_singleton.mp member
    exact ⟨⟨_, built⟩, fun _ => id⟩
  | apply input verb ih =>
    rcases List.mem_cons.mp member with rfl | member
    · exact ⟨⟨_, built⟩, fun _ => id⟩
    · obtain ⟨before, inputBuilt, _⟩ := bind_eq_ok.mp built
      obtain ⟨partBuilt, inside⟩ := ih inputBuilt member
      exact ⟨partBuilt, fun _ isPart => List.mem_cons_of_mem _ (inside isPart)⟩
  | join input right kind pairs ihLeft ihRight =>
    rcases List.mem_cons.mp member with rfl | member
    · exact ⟨⟨_, built⟩, fun _ => id⟩
    · obtain ⟨left, leftBuilt, built⟩ := bind_eq_ok.mp built
      obtain ⟨beside, rightBuilt, _⟩ := bind_eq_ok.mp built
      rcases List.mem_append.mp member with member | member
      · obtain ⟨partBuilt, inside⟩ := ihLeft leftBuilt member
        exact ⟨partBuilt, fun _ isPart =>
          List.mem_cons_of_mem _ (List.mem_append_left _ (inside isPart))⟩
      · obtain ⟨partBuilt, inside⟩ := ihRight rightBuilt member
        exact ⟨partBuilt, fun _ isPart =>
          List.mem_cons_of_mem _ (List.mem_append_right _ (inside isPart))⟩

/-- A built chain over declared sources is sound at its last step. -/
theorem coherent_of_built (built : chain.signature? = .ok signature)
    (declared : chain.SourcesDeclared) : chain.Coherent := by
  have coherent := signature_coherent built declared
  have whole := signature_of_built built
  rw [← whole] at coherent
  refine ⟨coherent.schema, coherent.groups, whole ▸ source_mem_parts built, ?_⟩
  rintro input right kind pairs rfl
  obtain ⟨left, leftBuilt, joins⟩ := bind_eq_ok.mp built
  obtain ⟨beside, rightBuilt, joined⟩ := bind_eq_ok.mp joins
  obtain ⟨_, schema, made, _, _, rfl⟩ := Signature.join_eq_ok.mp joined
  have rightDeclared : right.SourcesDeclared := fun member =>
    declared (List.mem_cons_of_mem _ (List.mem_append_right _ member))
  rw [Chain.schema, Chain.schema, Chain.schema, whole, signature_of_built leftBuilt,
    signature_of_built rightBuilt]
  exact Schema.laidOut_of_join (signature_coherent rightBuilt rightDeclared).schema.names made

/-- Where the names on both sides are different, a join is not refused for a repeated one. -/
theorem join_ne_duplicateColumn (built : chain.signature? = .ok signature)
    (rightBuilt : right.signature? = .ok known) (distinct : signature.schema.names.Nodup)
    (rightDistinct : known.schema.names.Nodup) (kind : JoinKind) (pairs : List (String × String))
    (name : String) : chain.extend (.join kind right pairs) ≠ .error (.duplicateColumn name) := by
  intro refused
  simp only [extend, checked, signature?, built, rightBuilt, ok_bind, bind_eq_error] at refused
  rcases refused with refused | ⟨_, _, refused⟩
  · simp only [Signature.join, throw_bind] at refused
    split at refused
    · cases refused
    · rcases bind_eq_error.mp refused with schemaRefused | ⟨_, _, refused⟩
      · exact Schema.join_ne_duplicateColumn distinct rightDistinct name schemaRefused
      · rcases bind_eq_error.mp refused with conflict | ⟨_, _, refused⟩
        · exact Signature.mergeSources_ne_duplicateColumn name conflict
        · cases refused
  · cases refused

/-- Every step of a built chain over declared sources is sound, and a join of two such chains is
never refused for a repeated name. -/
theorem coherent_parts (built : chain.signature? = .ok signature)
    (declared : chain.SourcesDeclared) :
    (∀ part ∈ chain.parts, part.Coherent) ∧
      ∀ {right : Chain} {known : Signature}, right.signature? = .ok known →
        right.SourcesDeclared → ∀ (kind : JoinKind) (pairs : List (String × String)) (name : String),
          chain.extend (.join kind right pairs) ≠ .error (.duplicateColumn name) := by
  refine ⟨fun part member => ?_, fun {right known} rightBuilt rightDeclared => ?_⟩
  · obtain ⟨⟨known, partBuilt⟩, inside⟩ := built_of_mem_parts built member
    exact coherent_of_built partBuilt fun isSource => declared (inside isSource)
  · exact join_ne_duplicateColumn built rightBuilt (signature_coherent built declared).schema.names
      (signature_coherent rightBuilt rightDeclared).schema.names

/-- Orders by the customers that made them. The columns of customers take the names of two columns
of orders, the key of orders among them. -/
def ordersByCustomer : Chain :=
  let orders := source "orders"
    ⟨[⟨"id", .int, false⟩, ⟨"customer", .int, true⟩, ⟨"note", .text, true⟩], [0], []⟩
  let customers := source "customers" ⟨[⟨"id", .int, false⟩, ⟨"note", .text, true⟩], [], [[0]]⟩
  apply (join orders customers .left [("customer", "id")]) (.groupBy ["customer"])

theorem coherent_ordersByCustomer :
    ordersByCustomer.signature? = .ok ordersByCustomer.signature ∧
      ordersByCustomer.SourcesDeclared ∧
      ordersByCustomer.schema = ⟨[⟨"customer", .int, true⟩, ⟨"id", .int, true⟩,
        ⟨"note", .text, true⟩], [], []⟩ ∧
      ordersByCustomer.signature.groups = ["customer"] ∧
      ∀ part ∈ ordersByCustomer.parts, part.Coherent := by
  have built : ordersByCustomer.signature? = .ok ordersByCustomer.signature := rfl
  have declared : ordersByCustomer.SourcesDeclared := by
    intro name schema member
    simp only [ordersByCustomer, parts, List.mem_cons, List.mem_append, List.not_mem_nil,
      reduceCtorEq, Chain.source.injEq, false_or, or_false] at member
    rcases member with ⟨_, rfl⟩ | ⟨_, rfl⟩
    · let columns : List Column :=
        [⟨"id", .int, true⟩, ⟨"customer", .int, true⟩, ⟨"note", .text, true⟩]
      have listed : Schema.Declared { columns } := @Schema.Declared.columns columns _ rfl
      exact @Schema.Declared.primaryKey _ _ ["id"] listed rfl
    · let columns : List Column := [⟨"id", .int, false⟩, ⟨"note", .text, true⟩]
      have listed : Schema.Declared { columns } := @Schema.Declared.columns columns _ rfl
      exact @Schema.Declared.uniqueKey _ _ ["id"] listed rfl
  exact ⟨built, declared, rfl, rfl, (coherent_parts built declared).1⟩

end Chain

end TablePipeline

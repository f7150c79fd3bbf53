import TablePipeline.Proofs.Chain.Keys
import TablePipeline.Proofs.Chain.Renaming
import TablePipeline.Proofs.Dictionary

/-! # Steps of renamed chains

A step asks for the same of a renamed chain, and leaves what it left under the new names. Positions
stay as they are, in keys and in the layout of a join. The sources of a signature are kept in the
order of their names, so they change places when they are renamed.
-/

namespace TablePipeline

variable {rename : String → String}

/-! ## Schemas -/

theorem firstRepeated?_map (injective : rename.Injective) (seen names : List String) :
    firstRepeated? (seen.map rename) (names.map rename) =
      (firstRepeated? seen names).map rename := by
  induction names generalizing seen with
  | nil => rfl
  | cons name names ih =>
    simp only [List.map_cons, firstRepeated?, List.mem_map_of_injective injective]
    split
    · rfl
    · exact ih (name :: seen)

theorem requireDistinct_renamed (injective : rename.Injective) (names : List String) :
    SameOutcome (fun _ _ => True) (requireDistinct names) (requireDistinct (names.map rename)) := by
  have repeated := firstRepeated?_map injective [] names
  rw [List.map_nil] at repeated
  rw [requireDistinct, requireDistinct, repeated]
  cases firstRepeated? [] names with
  | some name => exact .error _ _
  | none => exact .ok trivial

theorem map_fst_renamed {α : Type} (rename : String → String) (renamed : α → α)
    (items : List (String × α)) :
    (items.map (Prod.map rename renamed)).map (·.1) = (items.map (·.1)).map rename := by
  rw [List.map_map, List.map_map]
  rfl

theorem map_name_renamed (rename : String → String) (columns : List Column) :
    (columns.map (Column.renamed rename)).map (·.name) = (columns.map (·.name)).map rename := by
  rw [List.map_map, List.map_map]
  rfl

theorem schemaOf_renamed (injective : rename.Injective) (columns : List Column) :
    SameOutcome (fun schema schema' => schema' = schema.renamed rename) (schemaOf columns)
      (schemaOf (columns.map (Column.renamed rename))) := by
  have repeated := firstRepeated?_map injective [] (columns.map (·.name))
  rw [List.map_nil, ← map_name_renamed] at repeated
  rw [schemaOf, schemaOf, Schema.ofColumns, Schema.ofColumns, repeated]
  cases firstRepeated? [] (columns.map (·.name)) with
  | some name => exact .error _ _
  | none => exact .ok rfl

namespace Schema

variable {schema source left right : Schema}

theorem mapM_congr_left {moved moved' : Nat → Option Nat} {key : List Nat}
    (agree : ∀ position ∈ key, moved' position = moved position) :
    key.mapM moved' = key.mapM moved := by
  induction key with
  | nil => rfl
  | cons position key ih =>
    obtain ⟨first, others⟩ := List.forall_mem_cons.mp agree
    rw [List.mapM_cons, List.mapM_cons, first, ih others]

/-- Keys are kept where their positions go to the same places. -/
theorem retainKeys_renamed (formed : source.Formed) {moved moved' : Nat → Option Nat}
    (agree : ∀ position < source.width, moved' position = moved position) :
    (schema.renamed rename).retainKeys (source.renamed rename) moved' =
      (schema.retainKeys source moved).renamed rename := by
  have each {key : List Nat} (isKey : key ∈ source.keys) : key.mapM moved' = key.mapM moved :=
    mapM_congr_left fun position inKey => agree position (formed.keys key isKey position inKey)
  have primary : source.primaryKey.mapM moved' = source.primaryKey.mapM moved := by
    by_cases empty : source.primaryKey = []
    · rw [empty]
      rfl
    · exact each (mem_keys.mpr (.inl ⟨rfl, empty⟩))
  have unique : source.uniqueKeys.filterMap (·.mapM moved') =
      source.uniqueKeys.filterMap (·.mapM moved) :=
    List.filterMap_congr fun key isKey => each (mem_keys.mpr (.inr isKey))
  simp only [retainKeys, renamed, primary, unique]

theorem select_renamed (injective : rename.Injective) (formed : source.Formed)
    (names : List String) :
    SameOutcome (fun schema schema' => schema' = schema.renamed rename) (source.select names)
      ((source.renamed rename).select (names.map rename)) := by
  rw [select, select]
  refine (SameOutcome.mapM fun name _ =>
    source.resolveColumn_renamed injective .select name).bind ?_
  rintro columns _ _ rfl
  refine (schemaOf_renamed injective columns).bind ?_
  rintro result _ _ rfl
  refine .ok (retainKeys_renamed formed fun position inside => ?_)
  rw [nameAt_renamed rename inside, List.findIdx?_map]
  congr 1
  funext name
  exact decide_eq_decide.mpr injective.eq_iff

theorem assign_renamed (injective : rename.Injective) (formed : source.Formed)
    (columns : List Column) :
    SameOutcome (fun schema schema' => schema' = schema.renamed rename) (source.assign columns)
      ((source.renamed rename).assign (columns.map (Column.renamed rename))) := by
  have replaced : ((source.renamed rename).columns.map fun old =>
      ((columns.map (Column.renamed rename)).find? (·.name = old.name)).getD old) =
      (source.columns.map fun old =>
        (columns.find? (·.name = old.name)).getD old).map (Column.renamed rename) := by
    rw [renamed, List.map_map, List.map_map]
    refine List.map_congr_left fun old _ => ?_
    have found : (columns.map (Column.renamed rename)).find?
        (·.name = (old.renamed rename).name) =
        (columns.find? (·.name = old.name)).map (Column.renamed rename) :=
      column?_renamed injective ⟨columns, [], []⟩ old.name
    rw [Function.comp_apply, Function.comp_apply, found]
    cases columns.find? (·.name = old.name) <;> rfl
  have added : (columns.map (Column.renamed rename)).filter
      (fun column => ((source.renamed rename).position? column.name).isNone) =
      (columns.filter fun column => (source.position? column.name).isNone).map
        (Column.renamed rename) := by
    rw [List.filter_map]
    congr 2
    funext column
    exact congrArg Option.isNone (position?_renamed injective source column.name)
  rw [assign, assign]
  simp only [replaced, added, map_name_renamed, ← List.map_append]
  refine (schemaOf_renamed injective _).bind ?_
  rintro result _ _ rfl
  refine .ok (retainKeys_renamed formed fun position inside => ?_)
  simp only [nameAt_renamed rename inside, List.mem_map_of_injective injective]

/-! ## Joins -/

theorem filter_nameAt_renamed (injective : rename.Injective) {positions : List Nat}
    (inside : ∀ position ∈ positions, position < source.width) (names : List String) :
    positions.filter ((source.renamed rename).nameAt · ∉ names.map rename) =
      positions.filter (source.nameAt · ∉ names) := by
  refine List.filter_congr fun position member => ?_
  simp only [nameAt_renamed rename (inside position member), List.mem_map_of_injective injective]

/-- Pairs of one name on both sides stand for the positions that they stood for. -/
theorem shared_renamed (injective : rename.Injective) (right : Schema)
    (pairs : List (String × String)) :
    (pairs.map (Prod.map rename rename)).filterMap
        (fun (l, r) => if l = r then (right.renamed rename).position? r else none) =
      pairs.filterMap fun (l, r) => if l = r then right.position? r else none := by
  rw [List.filterMap_map]
  refine List.filterMap_congr fun pair _ => ?_
  simp only [Function.comp_apply, Prod.map, injective.eq_iff, position?_renamed injective]

/-- The layout of a join holds positions alone. -/
theorem joinLayout_renamed (injective : rename.Injective) (left right : Schema)
    (pairs : List (String × String)) :
    joinLayout (left.renamed rename) (right.renamed rename) (pairs.map (Prod.map rename rename)) =
      joinLayout left right pairs := by
  have rightNames (positions : List Nat) (inside : ∀ position ∈ positions, position < right.width) :
      positions.map (right.renamed rename).nameAt = (positions.map right.nameAt).map rename := by
    rw [List.map_map]
    exact List.map_congr_left fun position member => nameAt_renamed rename (inside position member)
  simp only [joinLayout, shared_renamed injective, width_renamed]
  rw [rightNames _ fun position member => List.mem_range.mp (List.mem_filter.mp member).1,
    filter_nameAt_renamed injective fun position => List.mem_range.mp]

theorem joinColumn?_renamed (rename : String → String) (left right : Schema) (kind : JoinKind)
    (entry : JoinColumn) :
    joinColumn? (left.renamed rename) (right.renamed rename) kind entry =
      (joinColumn? left right kind entry).map (Column.renamed rename) := by
  rw [joinColumn?, joinColumn?]
  cases entry.side with
  | left => exact List.getElem?_map
  | right =>
    simp only [renamed, List.getElem?_map, Option.map_map]
    rfl

theorem checkPairs_renamed (injective : rename.Injective) (left right : Schema)
    (pairs : List (String × String)) :
    SameOutcome (fun _ _ => True) (checkPairs left right pairs)
      (checkPairs (left.renamed rename) (right.renamed rename)
        (pairs.map (Prod.map rename rename))) := by
  induction pairs with
  | nil => exact .ok trivial
  | cons pair pairs ih =>
    refine (left.resolveColumn_renamed injective .join pair.1).bind ?_
    rintro leftColumn _ _ rfl
    refine (right.resolveColumn_renamed injective .join pair.2).bind ?_
    rintro rightColumn _ _ rfl
    exact .ite .rfl ih (.error _ _)

theorem coversKey_renamed (injective : rename.Injective) (formed : schema.Formed)
    (names : List String) :
    (schema.renamed rename).coversKey (names.map rename) = schema.coversKey names := by
  rw [Bool.eq_iff_iff]
  simp only [coversKey, keyNames, List.any_map, List.any_eq_true, Function.comp_apply,
    List.all_map, List.all_eq_true, List.contains_eq_mem, decide_eq_true_iff]
  refine exists_congr fun key => and_congr_right fun isKey => forall₂_congr fun position inKey => ?_
  rw [nameAt_renamed rename (formed.keys key isKey position inKey),
    List.mem_map_of_injective injective]

theorem join_renamed (injective : rename.Injective) (formed : left.Formed)
    (formedRight : right.Formed) (kind : JoinKind) (pairs : List (String × String)) :
    SameOutcome (fun schema schema' => schema' = schema.renamed rename)
      (left.join right kind pairs)
      ((left.renamed rename).join (right.renamed rename) kind
        (pairs.map (Prod.map rename rename))) := by
  have rights : (pairs.map (Prod.map rename rename)).map (·.2) = (pairs.map (·.2)).map rename := by
    rw [List.map_map, List.map_map]
    rfl
  have columns : joinColumn? (left.renamed rename) (right.renamed rename) kind =
      fun entry => (joinColumn? left right kind entry).map (Column.renamed rename) :=
    funext (joinColumn?_renamed rename left right kind)
  have keyed (schema : Schema) : (schema.renamed rename).hasKeys = schema.hasKeys := rfl
  simp only [join, throw_bind, map_fst_renamed, rights, columns, keyed,
    joinLayout_renamed injective, coversKey_renamed injective formed, coversKey_renamed injective formedRight, List.isEmpty_map,
    ← List.map_filterMap]
  refine .guard .rfl ((checkPairs_renamed injective left right pairs).bind fun _ _ _ _ => ?_)
  refine .guard .rfl ((schemaOf_renamed injective _).bind ?_)
  rintro result _ _ rfl
  exact .ite .rfl (.ok (retainKeys_renamed formed fun _ _ => rfl)) (.ok rfl)

end Schema

/-! ## Sources -/

namespace Dictionary

variable {ν : Type} {dictionary : Dictionary String ν} {name : String} {value : ν}

/-- Where names are different, what is found is told from the entries. -/
theorem find?_eq_some_iff (distinct : dictionary.keys.Nodup) :
    dictionary.find? name = some value ↔ (name, value) ∈ dictionary.entries := by
  refine ⟨mem_of_find?, fun member => ?_⟩
  have someFound : (dictionary.entries.find? (·.1 = name)).isSome :=
    List.find?_isSome.mpr ⟨_, member, decide_eq_true rfl⟩
  obtain ⟨entry, found⟩ := Option.isSome_iff_exists.mp someFound
  have named : entry.1 = name := by simpa using List.find?_some found
  have same : entry = (name, value) :=
    List.inj_on_of_nodup_map distinct (List.mem_of_find?_eq_some found) member named
  rw [find?, found, same]
  rfl

/-- A name that is new gets one more entry. -/
theorem perm_insertNamed (missing : dictionary.find? name = none) (value : ν) :
    (dictionary.insertNamed name value).entries.Perm ((name, value) :: dictionary.entries) := by
  obtain ⟨entries⟩ := dictionary
  rw [insertNamed]
  induction entries with
  | nil => exact .refl _
  | cons entry rest ih =>
    have different : entry.1 ≠ name := by
      rintro rfl
      simp [find?] at missing
    have missingRest : (Dictionary.mk rest).find? name = none := by
      simpa [find?, different] using missing
    rw [insertNamedEntry, if_neg different]
    split
    · exact .refl _
    · exact ((ih missingRest).cons entry).trans (.swap ..)

end Dictionary

namespace Signature

/-- Merged sources are those of both sides, if each of the others is missing or known with its
schema; and sources are not merged otherwise. -/
theorem mergeSources_cases (sources : Dictionary String Schema) {entries : List (String × Schema)}
    (distinct : (entries.map (·.1)).Nodup) :
    (∃ merged, mergeSources sources entries = .ok merged ∧
        (∀ entry ∈ entries, ∀ schema, sources.find? entry.1 = some schema → schema = entry.2) ∧
        merged.entries.Perm
          (sources.entries ++ entries.filter fun entry => (sources.find? entry.1).isNone)) ∨
      ∃ error, mergeSources sources entries = .error error ∧
        ¬ ∀ entry ∈ entries, ∀ schema, sources.find? entry.1 = some schema → schema = entry.2 := by
  induction entries generalizing sources with
  | nil => exact .inl ⟨sources, rfl, (fun _ member => nomatch member), by simp⟩
  | cons entry entries ih =>
    obtain ⟨name, schema⟩ := entry
    obtain ⟨fresh, distinct⟩ := List.nodup_cons.mp distinct
    rw [mergeSources]
    cases found : sources.find? name with
    | some known =>
      by_cases same : known = schema
      · have here : ∀ schema', sources.find? name = some schema' → schema' = schema := by
          intro schema' found'
          rw [← same, Option.some.inj (found.symm.trans found')]
        simp only [if_pos same, List.forall_mem_cons, List.filter_cons, found, Option.isNone_some,
          Bool.false_eq_true, if_false]
        rcases ih sources distinct with
          ⟨merged, made, agree, perm⟩ | ⟨error, failed, disagree⟩
        · exact .inl ⟨merged, made, ⟨found ▸ here, agree⟩, perm⟩
        · exact .inr ⟨error, failed, fun agree => disagree agree.2⟩
      · refine .inr ⟨_, if_neg same, fun agree => same ?_⟩
        exact agree (name, schema) (List.mem_cons_self ..) known found
    | none =>
      have others (entry : String × Schema) (member : entry ∈ entries) :
          (sources.insertNamed name schema).find? entry.1 = sources.find? entry.1 := by
        rw [Dictionary.find?_insertNamed, if_neg]
        exact fun same => fresh (List.mem_map.mpr ⟨entry, member, same⟩)
      have sameFilter : entries.filter
          (fun entry => ((sources.insertNamed name schema).find? entry.1).isNone) =
          entries.filter fun entry => (sources.find? entry.1).isNone :=
        List.filter_congr fun entry member => by rw [others entry member]
      have sameAgree : (∀ entry ∈ entries, ∀ schema',
          (sources.insertNamed name schema).find? entry.1 = some schema' → schema' = entry.2) ↔
          ∀ entry ∈ entries, ∀ schema', sources.find? entry.1 = some schema' →
            schema' = entry.2 :=
        forall₂_congr fun entry member => by rw [others entry member]
      have ih := ih (sources.insertNamed name schema) distinct
      rw [sameFilter, sameAgree] at ih
      simp only [List.forall_mem_cons, List.filter_cons, found, Option.isNone_none, if_true,
        reduceCtorEq, false_imp_iff, implies_true, true_and]
      rcases ih with ⟨merged, made, agree, perm⟩ | failed
      · refine .inl ⟨merged, made, agree, perm.trans ?_⟩
        have inserted := (Dictionary.perm_insertNamed found schema).append_right
          (entries.filter fun entry => (sources.find? entry.1).isNone)
        exact inserted.trans List.perm_middle.symm
      · exact .inr failed

end Signature

/-- Are the sources the same under new names, whatever their order? -/
structure Dictionary.Renames (rename : String → String)
    (sources sources' : Dictionary String Schema) : Prop where
  distinct : sources.keys.Nodup
  entries : sources'.entries.Perm (sources.entries.map (Prod.map rename (Schema.renamed rename)))

namespace Dictionary.Renames

variable {sources sources' others others' merged : Dictionary String Schema}

theorem keys (renames : sources.Renames rename sources') :
    sources'.keys.Perm (sources.keys.map rename) := by
  have perm := renames.entries.map (·.1)
  rw [List.map_map] at perm
  rw [Dictionary.keys, Dictionary.keys, List.map_map]
  exact perm

theorem distinct' (injective : rename.Injective) (renames : sources.Renames rename sources') :
    sources'.keys.Nodup :=
  renames.keys.nodup_iff.mpr (renames.distinct.map injective)

theorem find?_eq (injective : rename.Injective) (renames : sources.Renames rename sources')
    (name : String) :
    sources'.find? (rename name) = (sources.find? name).map (Schema.renamed rename) := by
  refine Option.ext fun schema' => ?_
  rw [find?_eq_some_iff (renames.distinct' injective), renames.entries.mem_iff, List.mem_map,
    Option.map_eq_some_iff]
  constructor
  · rintro ⟨⟨other, schema⟩, member, same⟩
    obtain ⟨sameName, rfl⟩ := Prod.mk.inj same
    cases injective sameName
    exact ⟨schema, (find?_eq_some_iff renames.distinct).mpr member, rfl⟩
  · rintro ⟨schema, found, rfl⟩
    exact ⟨(name, schema), (find?_eq_some_iff renames.distinct).mp found, rfl⟩

/-- Renamed sources are merged as those before them were. -/
theorem mergeSources (injective : rename.Injective) (renames : sources.Renames rename sources')
    (renamesOthers : others.Renames rename others') :
    SameOutcome (Renames rename) (Signature.mergeSources sources others.entries)
      (Signature.mergeSources sources' others'.entries) := by
  have agree : (∀ entry ∈ others'.entries, ∀ schema, sources'.find? entry.1 = some schema →
      schema = entry.2) ↔ ∀ entry ∈ others.entries, ∀ schema,
        sources.find? entry.1 = some schema → schema = entry.2 := by
    simp only [renamesOthers.entries.mem_iff, List.forall_mem_map, Prod.map_fst, Prod.map_snd,
      renames.find?_eq injective, Option.map_eq_some_iff, forall_exists_index, and_imp,
      forall_apply_eq_imp_iff₂, (Schema.renamed_injective injective).eq_iff]
  have missing : (fun entry : String × Schema => (sources'.find? entry.1).isNone) ∘
      Prod.map rename (Schema.renamed rename) = fun entry => (sources.find? entry.1).isNone := by
    funext entry
    rw [Function.comp_apply, Prod.map_fst, renames.find?_eq injective, Option.isNone_map]
  rcases Signature.mergeSources_cases sources renamesOthers.distinct with
    ⟨merged, made, agreed, perm⟩ | ⟨error, failed, disagree⟩
  · rcases Signature.mergeSources_cases sources' (renamesOthers.distinct' injective) with
      ⟨merged', made', _, perm'⟩ | ⟨error', _, disagree'⟩
    · rw [made, made']
      refine .ok ⟨(perm.map _).nodup_iff.mpr ?_, perm'.trans ?_⟩
      · rw [List.map_append]
        refine List.Nodup.append renames.distinct
          (renamesOthers.distinct.sublist (List.filter_sublist.map _)) fun name known added => ?_
        obtain ⟨entry, member, rfl⟩ := List.mem_map.mp added
        obtain ⟨⟨_, schema⟩, here, same⟩ := List.mem_map.mp known
        cases same
        have found := (find?_eq_some_iff renames.distinct).mpr here
        simp [found] at member
      · have filtered := renamesOthers.entries.filter fun entry => (sources'.find? entry.1).isNone
        rw [List.filter_map, missing] at filtered
        refine (renames.entries.append filtered).trans ?_
        rw [← List.map_append]
        exact (perm.map _).symm
    · exact absurd (agree.mpr agreed) disagree'
  · rcases Signature.mergeSources_cases sources' (renamesOthers.distinct' injective) with
      ⟨_, _, agreed', _⟩ | ⟨error', failed', _⟩
    · exact absurd (agree.mp agreed') disagree
    · rw [failed, failed']
      exact .error _ _

end Dictionary.Renames

/-! ## Signatures -/

/-- Is the same known under new names? -/
structure Signature.Renames (rename : String → String) (known known' : Signature) : Prop where
  schema : known'.schema = known.schema.renamed rename
  groups : known'.groups = known.groups.map rename
  name : known'.name = rename known.name
  sources : known.sources.Renames rename known'.sources

namespace Signature

variable {known known' other other' : Signature}

theorem assignedColumns_renamed (injective : rename.Injective) (schema : Schema)
    (assignments : List (String × Expr String)) :
    SameOutcome (fun columns columns' => columns' = columns.map (Column.renamed rename))
      (assignedColumns schema assignments)
      (assignedColumns (schema.renamed rename)
        (assignments.map (Prod.map rename (Expr.renamed rename)))) := by
  refine .mapM fun assignment _ => ?_
  refine (Expr.infer_renamed injective assignment.2).bind ?_
  rintro type _ _ rfl
  exact .ok rfl

theorem resolveAll_renamed (injective : rename.Injective) (schema : Schema) (clause : Clause)
    (names : List String) : SameOutcome (fun positions positions' => positions' = positions.map id)
      (names.mapM (schema.resolve clause))
      ((names.map rename).mapM ((schema.renamed rename).resolve clause)) :=
  .mapM fun name _ => schema.resolve_renamed injective clause name

theorem resolveKeys_renamed (injective : rename.Injective) (schema : Schema) (clause : Clause)
    (keys : List OrderKey) : SameOutcome (fun positions positions' => positions' = positions.map id)
      (keys.mapM fun key => schema.resolve clause key.column)
      ((keys.map (OrderKey.renamed rename)).mapM fun key =>
        (schema.renamed rename).resolve clause key.column) :=
  .mapM fun key _ => schema.resolve_renamed injective clause key.column

theorem withUniqueKey_renamed (injective : rename.Injective) (schema : Schema)
    (names : List String) :
    SameOutcome (fun next next' => next' = next.renamed rename) (schema.withUniqueKey names)
      ((schema.renamed rename).withUniqueKey (names.map rename)) := by
  have positions : SameOutcome (fun key key' => key' = key.map id) (schema.keyPositions names)
      ((schema.renamed rename).keyPositions (names.map rename)) := by
    refine .mapM fun name _ => ?_
    rw [Schema.position?_renamed injective]
    cases schema.position? name with
    | some position => exact .ok rfl
    | none => exact .error _ _
  refine positions.bind ?_
  rintro key _ _ rfl
  rw [List.map_id]
  exact .ok rfl

theorem summarise_renamed (injective : rename.Injective) (renames : known.Renames rename known')
    (aggregates : List (String × Aggregate)) :
    SameOutcome (fun schema schema' => schema' = schema.renamed rename)
      (known.summarise aggregates)
      (known'.summarise (aggregates.map (Prod.map rename (Aggregate.renamed rename)))) := by
  have names : known'.groups ++
      (aggregates.map (Prod.map rename (Aggregate.renamed rename))).map (·.1) =
      (known.groups ++ aggregates.map (·.1)).map rename := by
    rw [renames.groups, List.map_append, map_fst_renamed]
  rw [summarise, summarise, names, renames.schema]
  refine (requireDistinct_renamed injective _).bind fun _ _ _ _ => ?_
  rw [renames.groups]
  refine (SameOutcome.mapM fun group _ =>
    known.schema.resolveColumn_renamed injective .summarise group).bind ?_
  rintro keys _ _ rfl
  have column (assigned : String × Aggregate) :
      SameOutcome (fun column column' => column' = column.renamed rename)
        (assigned.2.infer known.schema >>= fun type => pure (type.column assigned.1))
        ((assigned.2.renamed rename).infer (known.schema.renamed rename) >>= fun type =>
          pure (type.column (rename assigned.1))) := by
    refine (assigned.2.infer_renamed injective known.schema).bind ?_
    rintro type _ _ rfl
    exact .ok rfl
  refine (SameOutcome.mapM fun assigned _ => column assigned).bind ?_
  rintro values _ _ rfl
  rw [← List.map_append]
  refine (schemaOf_renamed injective _).bind ?_
  rintro schema _ _ rfl
  refine .ite (by rw [List.isEmpty_map]) (.ok rfl) ?_
  exact (withUniqueKey_renamed injective schema known.groups).mapError

theorem apply_renamed (injective : rename.Injective) (formed : known.schema.Formed)
    (renames : known.Renames rename known') (verb : Verb) :
    SameOutcome (Renames rename) (known.apply verb) (known'.apply (verb.renamed rename)) := by
  obtain ⟨schema, groups, name, sources⟩ := known
  obtain ⟨schema', groups', name', sources'⟩ := known'
  obtain ⟨rfl, rfl, rfl, renamesSources⟩ := renames
  have unary (schema : Schema) (groups : List String) :
      Renames rename ⟨schema, groups, name, sources⟩ ⟨schema.renamed rename, groups.map rename, rename name, sources'⟩ :=
    ⟨rfl, rfl, rfl, renamesSources⟩
  have follows : Verb.followsGroups (verb.renamed rename) = Verb.followsGroups verb := by
    cases verb <;> rfl
  simp only [apply, throw_bind, follows, List.isEmpty_map]
  refine .guard .rfl ?_
  cases verb with
  | select columns =>
    refine .guard (by rw [List.isEmpty_map]) ?_
    refine (requireDistinct_renamed injective columns).bind fun _ _ _ _ => ?_
    refine (schema.select_renamed injective formed columns).bind ?_
    rintro selected _ _ rfl
    exact .ok (unary selected [])
  | mutate assignments =>
    simp only [Verb.renamed, map_fst_renamed]
    refine (requireDistinct_renamed injective _).bind fun _ _ _ _ => ?_
    refine (assignedColumns_renamed injective schema assignments).bind ?_
    rintro columns _ _ rfl
    refine (schema.assign_renamed injective formed columns).bind ?_
    rintro assigned _ _ rfl
    exact .ok (unary assigned [])
  | filter predicate =>
    refine (predicate.infer_renamed injective).bind ?_
    rintro _ value _ rfl
    exact (value.expect_context .bool _ _).bind fun _ _ _ _ => .ok (unary schema [])
  | groupBy columns =>
    refine (requireDistinct_renamed injective columns).bind fun _ _ _ _ => ?_
    exact (resolveAll_renamed injective schema .groupBy columns).bind
      fun _ _ _ _ => .ok (unary schema columns)
  | summarise aggregates =>
    refine (summarise_renamed injective (unary schema groups) aggregates).bind ?_
    rintro summarised _ _ rfl
    exact .ok (unary summarised [])
  | orderBy keys =>
    refine .guard (by rw [List.isEmpty_map]) ?_
    exact (resolveKeys_renamed injective schema .orderBy keys).bind
      fun _ _ _ _ => .ok (unary schema [])
  | window added =>
    refine .guard (by rw [Window.renamed, List.isEmpty_map]) ?_
    refine (resolveAll_renamed injective schema .window added.partitionBy).bind fun _ _ _ _ => ?_
    refine (resolveKeys_renamed injective schema .window added.orderBy).bind fun _ _ _ _ => ?_
    refine (added.function.infer_renamed injective schema).bind ?_
    rintro _ type _ rfl
    refine (schema.assign_renamed injective formed [type.column added.name]).bind ?_
    rintro assigned _ _ rfl
    exact .ok (unary assigned [])
  | rename name' => exact .ok ⟨rfl, rfl, rfl, renamesSources⟩

theorem join_renamed (injective : rename.Injective) (formed : known.schema.Formed)
    (formedOther : other.schema.Formed) (renames : known.Renames rename known')
    (renamesOther : other.Renames rename other') (kind : JoinKind)
    (pairs : List (String × String)) :
    SameOutcome (Renames rename) (known.join other kind pairs)
      (known'.join other' kind (pairs.map (Prod.map rename rename))) := by
  simp only [join, throw_bind, renames.groups, renames.schema, renamesOther.schema,
    List.isEmpty_map]
  refine .guard .rfl ?_
  refine (Schema.join_renamed injective formed formedOther kind pairs).bind ?_
  rintro schema _ _ rfl
  refine (renames.sources.mergeSources injective renamesOther.sources).bind ?_
  exact fun sources sources' _ renamed => .ok ⟨rfl, rfl, renames.name, renamed⟩

end Signature

end TablePipeline

import TablePipeline.Proofs.Chain.Joins
import TablePipeline.Proofs.Chain.Texts
import TablePipeline.Proofs.Sql.Queries

/-! # Chains are drafted as relations of their schemas

What a chain is compiled to is a relation that gives the columns of its schema, and the positions of
its rows, if every table that it reads has the columns that the chain declares, under different
names.
-/

namespace TablePipeline

/-! ## Joins -/

/-- What is known where the columns of two labelled subqueries are in scope. -/
structure SqlContext.KnowsSides (context : SqlContext) (left right : Schema)
    (leftLabel rightLabel : Nat) : Prop where
  distinctLeft : left.names.Nodup
  distinctRight : right.names.Nodup
  left : ∀ {name : String} {column : Column}, left.column? name = some column →
    context.columnType ⟨some leftLabel, name⟩ = context.view.see column.type
  right : ∀ {name : String} {column : Column}, right.column? name = some column →
    context.columnType ⟨some rightLabel, name⟩ = context.view.see column.type

/-- A column of a labelled subquery. -/
theorem Sql.symbols_reference (label : Nat) (column : String) :
    (words ("t" ++ toString label) ++ words "." ++ name column).symbols =
      (SqlReference.mk (some label) column).symbols := by
  simp [SqlReference.symbols, SqlReference.prefix_]

/-- The items of a join are its columns, each from its side. -/
theorem draftsItems_join {left right joined : Schema} {kind : JoinKind}
    {pairs : List (String × String)} (made : left.join right kind pairs = .ok joined)
    (leftLabel rightLabel : Nat) :
    List.Forall₂ (DraftsItem (·.KnowsSides left right leftLabel rightLabel))
      (Sql.joinItems left right (Schema.joinLayout left right pairs) joined.names
        (Sql.words ("t" ++ toString leftLabel)) (Sql.words ("t" ++ toString rightLabel)))
      joined.columns := by
  have listed := Schema.forall₂_joinLayout made
  rw [Sql.joinItems, Schema.names]
  generalize Schema.joinLayout left right pairs = layout at listed
  generalize joined.columns = columns at listed
  induction listed with
  | nil => exact .nil
  | @cons entry column layout columns isColumn _ ih =>
    refine .cons ?_ ih
    obtain ⟨side, index⟩ := entry
    cases side with
    | left =>
      have isColumn : left.columns[index]? = some column := isColumn
      refine ⟨.named (.column ⟨some leftLabel, left.nameAt index⟩) column.name, ?_, ?_⟩
      · exact (Sql.symbols_named _ _).trans (by rw [Sql.symbols_reference]; rfl)
      · intro context knows all
        have found := find?_name_of_mem knows.distinctLeft (List.mem_of_getElem? isColumn)
        rw [Schema.nameAt_of_getElem? isColumn]
        exact congrArg (fun type => [(column.name, type)]) (knows.left found)
    | right =>
      obtain ⟨source, isSource, rfl⟩ := Option.map_eq_some_iff.mp isColumn
      refine ⟨.named (.column ⟨some rightLabel, right.nameAt index⟩) source.name, ?_, ?_⟩
      · exact (Sql.symbols_named _ _).trans (by rw [Sql.symbols_reference]; rfl)
      · intro context knows all
        have found := find?_name_of_mem knows.distinctRight (List.mem_of_getElem? isSource)
        have type : context.columnType ⟨some rightLabel, source.name⟩ =
            context.view.see source.type := knows.right found
        rw [Schema.nameAt_of_getElem? isSource]
        exact congrArg (fun type => [(source.name, type)]) type

/-- The columns of a join, where its sides give the columns of their schemas. -/
theorem Schema.ShownIn.knowsSides {left right : Schema} {view : SqlView} {parameters : List Cell}
    {leftColumns rightColumns : List (String × CellType)} (shown : left.ShownIn view leftColumns)
    (shown' : right.ShownIn view rightColumns) (distinct : left.names.Nodup)
    (distinct' : right.names.Nodup) {leftLabel rightLabel : Nat} (apart : leftLabel ≠ rightLabel) :
    SqlContext.KnowsSides ⟨view, parameters, fun reference => columnType
      (if reference.label = some leftLabel then leftColumns else rightColumns) reference.column⟩
      left right leftLabel rightLabel := by
  obtain ⟨_, rfl⟩ := shown
  obtain ⟨_, rfl⟩ := shown'
  refine ⟨distinct, distinct', fun isColumn => ?_, fun isColumn => ?_⟩
  · simpa using Schema.columnType_seen isColumn _
  · simpa [Ne.symm apart] using Schema.columnType_seen isColumn _

/-- The number of a row of a join: by the position on the left, then by the one on the right. -/
def joinNumber (leftLabel rightLabel : Nat) : SqlTerm :=
  .windowed .rowNumber [] ⟨[], [.position ⟨some leftLabel, positionColumn⟩,
    .position ⟨some rightLabel, positionColumn⟩]⟩

theorem Sql.symbols_joinNumber (leftLabel rightLabel : Nat) :
    (words "ROW_NUMBER() OVER (ORDER BY " ++ separated ", "
      [words ("t" ++ toString leftLabel) ++ words "." ++ position,
        words ("t" ++ toString rightLabel) ++ words "." ++ position] ++ words ")").symbols =
      (joinNumber leftLabel rightLabel).symbols := by
  refine Verb.symbols_rowNumber ?_
  rw [List.map_cons, List.map_singleton, List.map_cons, List.map_singleton, position,
    symbols_reference, symbols_reference]
  rfl

/-- The pairs of a join, each column from its side. -/
def sidePairs (leftLabel rightLabel : Nat) (pairs : List (String × String)) :
    List (SqlReference × SqlReference) :=
  pairs.map fun (left, right) => (⟨some leftLabel, left⟩, ⟨some rightLabel, right⟩)

theorem Sql.symbols_joinCondition (leftLabel rightLabel : Nat) (pairs : List (String × String)) :
    (joinCondition pairs (words ("t" ++ toString leftLabel))
      (words ("t" ++ toString rightLabel))).symbols =
        conditionSymbols (sidePairs leftLabel rightLabel pairs) := by
  rw [joinCondition, symbols_separated, conditionSymbols, sidePairs, List.map_map, List.map_map]
  congr 1
  refine List.map_congr_left fun pair _ => ?_
  simp [pairSymbols, SqlReference.symbols, SqlReference.prefix_]

/-- The query of a join is a relation over both sides. -/
theorem exists_join {left right joined : Schema} {kind : JoinKind} {pairs : List (String × String)}
    (made : left.join right kind pairs = .ok joined) {leftRows rightRows : Sql}
    {leftRelation rightRelation : SqlRelation} (fromLeft : leftRows.symbols = leftRelation.symbols)
    (fromRight : rightRows.symbols = rightRelation.symbols) {leftLabel rightLabel : Nat}
    (apart : leftLabel ≠ rightLabel) :
    let leftAlias := Sql.words ("t" ++ toString leftLabel)
    let rightAlias := Sql.words ("t" ++ toString rightLabel)
    let items := Sql.joinItems left right (Schema.joinLayout left right pairs) joined.names
      leftAlias rightAlias
    let positions := Sql.separated ", "
      [leftAlias ++ .words "." ++ .position, rightAlias ++ .words "." ++ .position]
    let number := Sql.words "ROW_NUMBER() OVER (ORDER BY " ++ positions ++ .words ")"
    ∃ relation : SqlRelation,
      (Sql.selectFrom (.separated ", " items ++ .words ", " ++ number.named positionColumn)
          leftRows leftAlias ++ .words (Sql.joinWords kind) ++ rightRows ++ .words ") AS " ++
        rightAlias ++ .words " ON " ++ Sql.joinCondition pairs leftAlias rightAlias).symbols =
          relation.symbols ∧
      ∀ {view : SqlView} {parameters : List Cell} {tables : String → List (String × CellType)},
        left.names.Nodup → right.names.Nodup →
        left.ShownIn view (leftRelation.columns view parameters tables) →
        right.ShownIn view (rightRelation.columns view parameters tables) →
        joined.ShownIn view (relation.columns view parameters tables) := by
  intro leftAlias rightAlias items positions number
  obtain ⟨drafted, symbols, gives⟩ := exists_items (draftsItems_join made leftLabel rightLabel)
  let item : SqlItem := .named (joinNumber leftLabel rightLabel) positionColumn
  have numbered : (number.named positionColumn).symbols = item.symbols :=
    (Sql.symbols_named _ _).trans (congrArg (· ++ _) (Sql.symbols_joinNumber leftLabel rightLabel))
  have condition := Sql.symbols_joinCondition leftLabel rightLabel pairs
  have bracket : wordSymbols " FROM (" = wordSymbols " FROM " ++ wordSymbols "(" := rfl
  refine ⟨.join ((SqlSelection.ofItems drafted).push item) leftRelation leftLabel kind
    rightRelation rightLabel (sidePairs leftLabel rightLabel pairs), ?_, ?_⟩
  · change _ = selectSymbols ((SqlSelection.ofItems drafted).push item)
      (wordSymbols "(" ++ labelled leftRelation.symbols leftLabel (Sql.joinWords kind)
        (labelled rightRelation.symbols rightLabel " ON "
          (conditionSymbols (sidePairs leftLabel rightLabel pairs))))
    rw [selectSymbols, labelled, labelled, SqlSelection.symbols_push, SqlSelection.symbols_ofItems,
      commaSymbols, ← symbols, ← condition, ← numbered, ← fromLeft, ← fromRight]
    simp only [leftAlias, rightAlias, items, Sql.selectFrom, Sql.symbols_append, Sql.symbols_words,
      Sql.symbols_separated, bracket, List.append_assoc]
  · intro view parameters tables distinct distinct' shown shown'
    rw [SqlRelation.columns, SqlSelection.columns_push, SqlSelection.columns_ofItems]
    exact Schema.shownIn_append (SqlItem.isPosition_named _)
      (gives _ (shown.knowsSides shown' distinct distinct' apart) _)

/-! ## Chains -/

/-- Are the sources read as tables of their columns, and have the columns different names? -/
def Dictionary.ReadFrom (sources : Dictionary String Schema) (view : SqlView)
    (tables : String → List (String × CellType)) : Prop :=
  ∀ {name : String} {schema : Schema}, sources.find? name = some schema →
    schema.names.Nodup ∧ tables name = schema.seen view

namespace Chain

/-- The types that nulls are cast to in what a chain computes, its filters apart. -/
def nullTypes : Chain → List CellType
  | source .. => []
  | apply input verb => input.nullTypes ++ verb.nullTypes
  | join input right _ _ => input.nullTypes ++ right.nullTypes

variable {chain : Chain} {known : Signature} {sources : Dictionary String Schema}

/-- The columns of a chain that was built have different names where those of its sources have. -/
theorem nodup_of_built (built : chain.signature? = .ok known) (declared : chain.DeclaredIn sources)
    (distinct : ∀ {name : String} {schema : Schema}, sources.find? name = some schema →
      schema.names.Nodup) : known.schema.names.Nodup := by
  induction chain generalizing known with
  | source name schema =>
    cases built
    exact distinct declared
  | apply input verb ih =>
    obtain ⟨before, below, applied⟩ := built_below built
    exact Signature.nodup_of_apply applied (ih below declared)
  | join input right kind pairs _ _ =>
    obtain ⟨left, _, beside, _, joined⟩ := built_sides built
    obtain ⟨_, schema, made, _, _, rfl⟩ := Signature.join_eq_ok.mp joined
    exact Schema.nodup_of_join made

theorem requireUnreserved_eq_ok {schema : Schema} {draft : SqlDraft} {result : Unit × SqlDraft}
    (required : schema.requireUnreserved draft = .ok result) : result = ((), draft) := by
  unfold Schema.requireUnreserved at required
  split at required
  · exact absurd required Drafting.throw_ne_ok
  · exact (Drafting.pure_eq_ok.mp required).symm

/-- Does a relation give the columns of a chain that reads its sources? -/
def GivenBy (chain : Chain) (used : List Cell) (schema : Schema) (relation : SqlRelation) : Prop :=
  ∀ {view : SqlView} {parameters : List Cell} {tables : String → List (String × CellType)}
    {sources : Dictionary String Schema}, chain.DeclaredIn sources → sources.ReadFrom view tables →
    view.Admits chain.nullTypes → used <+: parameters →
    schema.ShownIn view (relation.columns view parameters tables)

/-- The query of a chain is a relation of the columns of the chain. -/
theorem drafted {draft draft' : SqlDraft} {sql : Sql} (built : chain.signature? = .ok known)
    (drafted : chain.draft .sqlite .bound draft = .ok (sql, draft')) :
    draft.parameters <+: draft'.parameters ∧ ∃ relation : SqlRelation,
      sql.symbols = relation.symbols ∧
        chain.GivenBy draft'.parameters known.schema relation := by
  induction chain generalizing known draft draft' sql with
  | source name schema =>
    cases built
    simp only [Chain.draft, Drafting.bind_eq_ok, Drafting.pure_eq_ok, Prod.mk.injEq] at drafted
    obtain ⟨_, _, required, rfl, rfl⟩ := drafted
    cases requireUnreserved_eq_ok required
    refine ⟨List.prefix_rfl, .table (.ofItems ((schema.names ++ [positionColumn]).map .ofColumn))
      name, ?_, ?_⟩
    · simp [SqlRelation.symbols, selectSymbols, SqlRelation.selection, SqlRelation.origin,
        SqlSelection.symbols_ofItems, Sql.symbols_names, Function.comp_def]
    · intro view parameters tables sources declared reads _ _
      rw [SqlRelation.columns, (reads declared).2]
      exact ⟨.int, rfl⟩
  | apply input verb ih =>
    obtain ⟨before, below, applied⟩ := built_below built
    simp only [Chain.draft, Drafting.bind_eq_ok] at drafted
    obtain ⟨_, _, required, inner, middle, inputDrafted, verbDrafted⟩ := drafted
    cases requireUnreserved_eq_ok required
    obtain ⟨grown, relation, symbols, given⟩ := ih below inputDrafted
    rw [signature_of_built below, Chain.schema, signature_of_built built] at verbDrafted
    obtain ⟨grown', next, symbols', leads⟩ := Verb.drafted applied symbols verbDrafted
    refine ⟨grown.trans grown', next, symbols', ?_⟩
    intro view parameters tables sources declared reads admits inUse
    refine leads (nodup_of_built below declared fun found => (reads found).1)
      (admits.mono (List.subset_append_right _ _)) inUse ?_
    exact given declared reads (admits.mono (List.subset_append_left _ _)) (grown'.trans inUse)
  | join input right kind pairs ih ih' =>
    obtain ⟨left, builtLeft, beside, builtRight, joined⟩ := built_sides built
    obtain ⟨_, schema, made, merged, _, rfl⟩ := Signature.join_eq_ok.mp joined
    simp only [Chain.draft, Drafting.bind_eq_ok, Drafting.newAlias_eq, Drafting.pure_eq_ok,
      Except.ok.injEq, Prod.mk.injEq] at drafted
    obtain ⟨_, _, required, leftRows, middle, leftDrafted, rightRows, last, rightDrafted, _, _,
      ⟨rfl, rfl⟩, _, _, ⟨rfl, rfl⟩, rfl, rfl⟩ := drafted
    cases requireUnreserved_eq_ok required
    obtain ⟨grown, leftRelation, leftSymbols, leftGiven⟩ := ih builtLeft leftDrafted
    obtain ⟨grown', rightRelation, rightSymbols, rightGiven⟩ := ih' builtRight rightDrafted
    have apart : last.aliases + 1 ≠ last.aliases + 1 + 1 := by omega
    obtain ⟨relation, symbols, gives⟩ := exists_join made leftSymbols rightSymbols apart
    refine ⟨grown.trans grown', relation, ?_, ?_⟩
    · rw [← symbols]
      simp only [Chain.schema, signature_of_built builtLeft, signature_of_built builtRight,
        signature_of_built built]
    · intro view parameters tables sources declared reads admits inUse
      have distinct {name : String} {schema : Schema} (found : sources.find? name = some schema) :
          schema.names.Nodup := (reads found).1
      refine gives (nodup_of_built builtLeft declared.1 distinct)
        (nodup_of_built builtRight declared.2 distinct) ?_ ?_
      · exact leftGiven declared.1 reads (admits.mono (List.subset_append_left _ _))
          (grown'.trans inUse)
      · exact rightGiven declared.2 reads (admits.mono (List.subset_append_right _ _)) inUse

end Chain

end TablePipeline

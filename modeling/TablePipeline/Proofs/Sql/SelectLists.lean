import TablePipeline.Proofs.Sql.CompiledTexts
import TablePipeline.Proofs.Sql.Faults
import TablePipeline.Proofs.Sql.Following
import TablePipeline.Proofs.Sql.Keywords

/-! # Lists of compiled queries

The lists of a compiled query have items, except where a schema without columns is listed. An
assignment and a summary list columns in front of the position, and there may be none of them; so may
there be none in the result. All other steps that are written have columns to list.
-/

namespace TablePipeline

open SqlSymbol (Quiet Selects)

/-! ## Filled lists -/

namespace SqlSymbol

/-- Does a list have items, and a comma neither in front of them nor behind them? Blanks do not
count. -/
def Filled (list : List SqlSymbol) : Prop :=
  let items := list.filter (· ≠ char ' ')
  items ≠ [] ∧ items.head? ≠ some (char ',') ∧ items.getLast? ≠ some (char ',')

instance (list : List SqlSymbol) : Decidable (Filled list) :=
  inferInstanceAs (Decidable (_ ∧ _ ∧ _))

variable {list : List SqlSymbol} {first last : SqlSymbol}

/-- Blanks around a list do not count. -/
theorem filled_blanks : Filled (wordSymbols " " ++ list ++ wordSymbols " ") ↔ Filled list := by
  have blank : (wordSymbols " ").filter (· ≠ char ' ') = [] := rfl
  simp only [Filled, List.filter_append, blank, List.nil_append, List.append_nil]

theorem filled_of_ends (isFirst : list.head? = some first)
    (opens : first ∉ [char ' ', char ',']) (isLast : list.getLast? = some last)
    (closes : last ∉ [char ' ', char ',']) : Filled list := by
  obtain ⟨rest, rfl⟩ := List.head?_eq_some_iff.mp isFirst
  obtain ⟨front, whole⟩ := List.getLast?_eq_some_iff.mp isLast
  have noBlank : first ≠ char ' ' ∧ last ≠ char ' ' := by simp_all
  have noComma : first ≠ char ',' ∧ last ≠ char ',' := by simp_all
  have begins : ((first :: rest).filter (· ≠ char ' ')).head? = some first := by
    simp [noBlank.1]
  have ends : ((first :: rest).filter (· ≠ char ' ')).getLast? = some last := by
    rw [whole]
    simp [noBlank.2]
  refine ⟨fun none => ?_, ?_, ?_⟩
  · rw [none] at begins
    cases begins
  · rw [begins]
    simpa using noComma.1
  · rw [ends]
    simpa using noComma.2

end SqlSymbol

open SqlSymbol (Filled)

namespace Sql

variable {sql more items inner label : Sql} {parts : List Sql} {full also listed : Prop}

/-- Is a name the last symbol of a part of a query? -/
def EndsInName (sql : Sql) : Prop :=
  ∃ quoted, sql.symbols.getLast? = some (.name quoted)

theorem endsInName (quoted : String) : EndsInName (name quoted) :=
  ⟨quoted, rfl⟩

theorem EndsInName.behind (ends : EndsInName more) (sql : Sql) : EndsInName (sql ++ more) := by
  obtain ⟨quoted, isLast⟩ := ends
  exact ⟨quoted, by rw [symbols_append, List.getLast?_append, isLast, Option.some_or]⟩

theorem Item.filled (item : Item sql) (ends : EndsInName sql) : Filled sql.symbols := by
  obtain ⟨first, isFirst, opens⟩ := item.2
  obtain ⟨quoted, isLast⟩ := ends
  exact SqlSymbol.filled_of_ends isFirst opens isLast (by simp)

/-- Items with commas between them begin with an item. -/
theorem item_separated (each : ∀ part ∈ parts, Item part) (some : parts ≠ []) :
    Item (separated ", " parts) := by
  cases parts with
  | nil => exact absurd rfl some
  | cons first rest =>
    obtain ⟨here, others⟩ := List.forall_mem_cons.mp each
    rw [separated]
    cases rest with
    | nil => rwa [List.intercalate_singleton]
    | cons next rest =>
      rw [List.intercalate_cons_cons, List.append_assoc]
      refine here.append (quiet_append (quiet_words (by decide)) ?_)
      exact quiet_separated (by decide) fun part member => (others part member).quiet

theorem endsInName_names {columns : List String} (some : columns ≠ []) :
    EndsInName (names columns) := by
  rw [names, separated]
  induction columns with
  | nil => exact absurd rfl some
  | cons first rest ih =>
    cases rest with
    | nil => exact endsInName first
    | cons next rest =>
      rw [List.map_cons, List.map_cons, List.intercalate_cons_cons]
      exact (ih (List.cons_ne_nil next rest)).behind _

theorem item_of_mem_names (columns : List String) : ∀ part ∈ columns.map name, Item part := by
  intro part member
  obtain ⟨column, _, rfl⟩ := List.mem_map.mp member
  exact .name column

/-- A list of names is filled if there are some. -/
theorem filled_names (columns : List String) : Filled (names columns).symbols ↔ columns ≠ [] := by
  constructor
  · rintro filled rfl
    exact absurd filled (by decide)
  · intro some
    exact (item_separated (item_of_mem_names columns) (by simpa using some)).filled
      (endsInName_names some)

/-- A list that ends with a position is filled if there are items in front of it. -/
theorem filled_behind (each : ∀ part ∈ parts, Item part) (quiet : Quiet more.symbols)
    (ends : EndsInName more) :
    Filled (separated ", " parts ++ words ", " ++ more).symbols ↔ parts ≠ [] := by
  constructor
  · rintro filled rfl
    have comma : (separated ", " [] ++ words ", " ++ more).symbols =
        .char ',' :: .char ' ' :: more.symbols := by
      rw [symbols_append]
      rfl
    rw [comma] at filled
    exact filled.2.1 (by simp)
  · intro some
    exact (((item_separated each some).append (quiet_words (by decide))).append quiet).filled
      (ends.behind _)

/-! ## Lists of parts -/

/-- Are the lists of a part of a query filled exactly under a condition? -/
def Lists (sql : Sql) (full : Prop) : Prop :=
  ∃ lists, Selects sql.symbols lists ∧ ((∀ list ∈ lists, Filled list) ↔ full)

namespace Lists

theorem of_quiet (quiet : Quiet sql.symbols) : Lists sql True :=
  ⟨[], .of_quiet quiet, by simp⟩

theorem append (front : Lists sql full) (back : Lists more also) :
    Lists (sql ++ more) (full ∧ also) := by
  obtain ⟨lists, selects, filled⟩ := front
  obtain ⟨others, selects', filled'⟩ := back
  refine ⟨lists ++ others, ?_, ?_⟩
  · rw [symbols_append]
    exact selects.append selects'
  · rw [List.forall_mem_append, filled, filled']

theorem congr (lists : Lists sql full) (same : full ↔ also) : Lists sql also :=
  lists.imp fun _ selects => ⟨selects.1, selects.2.trans same⟩

/-- What is quiet adds no list. -/
theorem followedBy (front : Lists sql full) (quiet : Quiet more.symbols) :
    Lists (sql ++ more) full :=
  (front.append (.of_quiet quiet)).congr (and_iff_left trivial)

/-- A quiet part behind SELECT and in front of FROM is a list. -/
theorem select {text : String} (quiet : Quiet items.symbols)
    (filled : Filled items.symbols ↔ listed) (begins : Quiet (wordSymbols text)) :
    Lists (words "SELECT " ++ items ++ words (" FROM" ++ text)) listed := by
  have blank : Quiet (wordSymbols " ") := by decide
  have isList := (Selects.select ((blank.append quiet).append blank)).append (.of_quiet begins)
  refine ⟨[wordSymbols " " ++ items.symbols ++ wordSymbols " "], ?_, ?_⟩
  · have front : "SELECT " = "SELECT" ++ " " := rfl
    have back : " FROM" = " " ++ "FROM" := rfl
    simpa only [symbols_append, symbols_words, front, back, wordSymbols_append, List.append_assoc,
      List.append_nil] using isList
  · rw [List.forall_mem_singleton, SqlSymbol.filled_blanks, filled]

/-- The lists of a query over a subquery are its own and those of the subquery. -/
theorem selectFrom (quiet : Quiet items.symbols) (filled : Filled items.symbols ↔ listed)
    (rows : Lists inner full) (named : Item label) :
    Lists (selectFrom items inner label) (listed ∧ full) := by
  have bracket : " FROM (" = " FROM" ++ " (" := rfl
  rw [Sql.selectFrom, bracket]
  exact (((select quiet filled (by decide)).append rows).followedBy
    (quiet_words (by decide))).followedBy named.quiet

end Lists

end Sql

open Sql (Item Lists)

/-! ## Answers of actions -/

namespace Drafting

variable {α β : Type} {property : α → Prop} {after : β → Prop}

/-- Does every answer of an action have a property? -/
def Ensures (action : Drafting α) (property : α → Prop) : Prop :=
  ∀ draft answer, action draft = .ok answer → property answer.1

theorem Ensures.pure {value : α} (holds : property value) : Ensures (Pure.pure value) property := by
  intro draft answer given
  rw [← Drafting.pure_eq_ok.mp given]
  exact holds

theorem Ensures.throw (fault : CompileError) :
    Ensures (MonadExcept.throw fault : Drafting α) property :=
  fun _ _ given => absurd given Drafting.throw_ne_ok

theorem Ensures.bind {first : Drafting α} {next : α → Drafting β} (early : Ensures first property)
    (late : ∀ value, property value → Ensures (next value) after) :
    Ensures (first >>= next) after := by
  intro draft answer given
  obtain ⟨value, middle, answered, goesOn⟩ := Drafting.bind_eq_ok.mp given
  exact late value (early draft _ answered) middle answer goesOn

theorem Ensures.bindPure {first : Drafting α} {f : α → β} (early : Ensures first property)
    (late : ∀ value, property value → after (f value)) :
    Ensures (first >>= fun value => Pure.pure (f value)) after :=
  early.bind fun value holds => .pure (late value holds)

/-- As many items are written as there are values to write. -/
theorem ensures_items {f : α → Drafting Sql} {values : List α}
    (each : ∀ value ∈ values, Ensures (f value) Item) :
    Ensures (values.mapM f) fun items =>
      items.length = values.length ∧ ∀ item ∈ items, Item item := by
  induction values with
  | nil => exact .pure ⟨rfl, by simp⟩
  | cons value rest ih =>
    obtain ⟨here, others⟩ := List.forall_mem_cons.mp each
    rw [List.mapM_cons]
    refine here.bind fun first item => (ih others).bindPure fun items known => ?_
    exact ⟨congrArg Nat.succ known.1, List.forall_mem_cons.mpr ⟨item, known.2⟩⟩

theorem ensures_newAlias : Ensures newAlias Item := by
  intro draft answer given
  rw [newAlias_eq] at given
  cases given
  exact .label _

theorem ensures_literal (style : LiteralStyle) (cell : Cell) : Ensures (literal style cell) Item := by
  cases style with
  | inPlace => exact .pure (.value cell)
  | bound =>
    intro draft answer given
    rw [literal_bound] at given
    cases given
    exact .parameter _

end Drafting

open Drafting (Ensures)

variable {dialect : Dialect} {style : LiteralStyle} {schema : Schema}

/-! ## Expressions are items -/

namespace Expr

mutual

theorem ensures_draft : ∀ expr : Expr String, Ensures (expr.draft dialect style schema) Item
  | column name => .pure (.name name)
  | literal cell => by
    cases cell with
    | null => exact .pure (by decide)
    | bool | int | float | text => exact Drafting.ensures_literal style _
  | cast operand type => by
    have null : Item (Sql.words "NULL") := by decide
    rw [draft]
    split
    · exact .pure (null.cast (SqlSymbol.quiet_typeName dialect type))
    · have typed : Ensures (Drafting.typeOf schema operand) fun _ => True := fun _ _ _ => trivial
      exact typed.bind fun source _ =>
        operand.ensures_draft.bindPure fun _ item => item.convert source type
  | binary op left right => by
    rw [draft]
    exact left.ensures_draft.bind fun _ onLeft =>
      right.ensures_draft.bindPure fun _ onRight => onLeft.binary onRight op
  | unary op operand => by
    rw [draft]
    exact operand.ensures_draft.bindPure fun _ item => item.unary op
  | call function arguments => by
    rw [draft]
    refine (ensures_draftAll arguments).bind fun sqls each => ?_
    split
    · rename_i found
      exact .pure (.scalar each found)
    · exact .throw _

theorem ensures_draftAll : ∀ arguments : List (Expr String),
    Ensures (draftAll dialect style schema arguments) fun sqls => ∀ sql ∈ sqls, Item sql
  | [] => .pure (by simp)
  | argument :: rest => by
    rw [draftAll]
    exact argument.ensures_draft.bind fun _ first =>
      (ensures_draftAll rest).bindPure fun _ others => List.forall_mem_cons.mpr ⟨first, others⟩

end

end Expr

theorem Aggregate.ensures_draft (aggregate : Aggregate) :
    Ensures (aggregate.draft dialect style schema) Item := by
  obtain ⟨function, argument⟩ := aggregate
  cases argument with
  | none => exact .pure (.aggregate (by simp) function)
  | some argument =>
    refine argument.ensures_draft.bindPure fun sql item => .aggregate ?_ function
    rintro _ ⟨⟩
    exact item

theorem WindowFunction.ensures_draft (function : WindowFunction) :
    Ensures (function.draft dialect style schema) Item := by
  have shifted {name : String} {sql : Sql} (named : Item (Sql.words (name ++ "("))) (item : Item sql)
      (offset : Nat) : Item (Sql.call name [sql, .words (toString offset)]) :=
    .call named (List.forall_mem_cons.mpr ⟨item.quiet, List.forall_mem_singleton.mpr
      (Sql.quiet_words (SqlSymbol.quiet_toString offset))⟩)
  cases function with
  | rowNumber | rank => exact .pure (by decide)
  | lead argument offset | lag argument offset =>
    exact argument.ensures_draft.bindPure fun _ item => shifted (by decide) item _

/-! ## Steps -/

theorem Sql.endsInName_named (item : Sql) (column : String) : EndsInName (item.named column) :=
  (endsInName column).behind _

/-- The number of a row in an order. -/
theorem Sql.item_numbered {terms : Sql} (quiet : Quiet terms.symbols) :
    Item (words "ROW_NUMBER() OVER (ORDER BY " ++ terms ++ words ")") := by
  have front : Item (words "ROW_NUMBER() OVER (ORDER BY ") := by decide
  exact (front.append quiet).append (quiet_words (by decide))

/-- A query that lists items and the position of its rows behind them. -/
theorem Sql.Lists.listing {parts : List Sql} {last inner label : Sql} {full : Prop}
    (each : ∀ part ∈ parts, Item part) (item : Item last) (ends : EndsInName last)
    (rows : Lists inner full) (named : Item label) :
    Lists (Sql.selectFrom (separated ", " parts ++ words ", " ++ last) inner label)
      (parts ≠ [] ∧ full) := by
  refine .selectFrom ?_ (filled_behind each item.quiet ends) rows named
  exact quiet_append (quiet_append (quiet_separated (by decide) fun part member =>
    (each part member).quiet) (quiet_words (by decide))) item.quiet

theorem ne_nil_iff_of_length {α β : Type} {items : List α} {others : List β}
    (same : items.length = others.length) : items ≠ [] ↔ others ≠ [] := by
  rw [ne_eq, ne_eq, ← List.length_eq_zero_iff, same, List.length_eq_zero_iff]

namespace Schema

/-- A schema in which a name is found has columns. -/
theorem columns_ne_nil {name : String} (found : (schema.position? name).isSome) :
    schema.columns ≠ [] := by
  intro none
  rw [position?, none] at found
  cases found

/-- A join has columns: where all columns of the left side are left out, the right side has others. -/
theorem columns_ne_nil_of_join {left right joined : Schema} {kind : JoinKind}
    {pairs : List (String × String)} (made : left.join right kind pairs = .ok joined) :
    joined.columns ≠ [] := by
  obtain ⟨pair, isPair⟩ := List.exists_mem_of_ne_nil pairs (join_eq_ok.mp made).1
  have known := columns_ne_nil (known_of_checkPairs (checkPairs_of_join made) pair isPair).1
  rw [← ne_nil_iff_of_length (forall₂_joinLayout made).length_eq, joinLayout]
  intro none
  obtain ⟨noLeft, noRight⟩ := List.append_eq_nil_iff.mp none
  rw [List.map_eq_nil_iff] at noLeft noRight
  rw [noRight] at noLeft
  exact known (by simpa [width] using noLeft)

end Schema

namespace Verb

variable {before after : Signature} {inner : Sql} {full : Prop}

/-- Is an operation a list of assignments, which may be empty? -/
def assigns : Verb → Bool
  | mutate _ | summarise _ => true
  | select _ | filter _ | groupBy _ | orderBy _ | window _ | rename _ => false

theorem lists_mutate {assignments : List (String × Expr String)} (columns : List String)
    (rows : Lists inner full) :
    Ensures ((mutate assignments).draft dialect style before columns inner)
      (Lists · (columns ≠ [] ∧ full)) := by
  rw [draft]
  refine (Drafting.ensures_items fun column _ => ?_).bind fun items each =>
    Drafting.ensures_newAlias.bindPure fun label named => ?_
  · cases assignments.lookup column with
    | none => exact .pure (.name column)
    | some expr => exact expr.ensures_draft.bindPure fun _ item => item.named column
  · rw [← ne_nil_iff_of_length each.1]
    exact .listing each.2 (.name _) (Sql.endsInName _) rows named

theorem lists_summarise {aggregates : List (String × Aggregate)}
    (applied : before.apply (.summarise aggregates) = .ok after) (columns : List String)
    (rows : Lists inner full) :
    Ensures ((summarise aggregates).draft dialect style before columns inner)
      (Lists · (after.schema.names ≠ [] ∧ full)) := by
  obtain ⟨keys, values, known, typed, listed⟩ :=
    Signature.columns_of_summarise (Signature.schema_of_summarise applied)
  rw [draft]
  refine (Drafting.ensures_items fun added _ => ?_).bind fun items each =>
    Drafting.ensures_newAlias.bind fun label named => ?_
  · exact added.2.ensures_draft.bindPure fun _ item => item.named added.1
  · have names := Sql.item_of_mem_names before.groups
    have all : ∀ item ∈ before.groups.map Sql.name ++ items, Item item :=
      List.forall_mem_append.mpr ⟨names, each.2⟩
    have lengths : (before.groups.map Sql.name ++ items).length = after.schema.names.length := by
      rw [mapM_eq_ok] at known
      rw [Schema.names, List.length_map, listed, List.length_append, List.length_append,
        List.length_map, known.length_eq, each.1, typed.length_eq]
    rw [← ne_nil_iff_of_length lengths]
    have grouped : Quiet (Sql.separated ", " (before.groups.map Sql.name)).symbols :=
      Sql.quiet_separated (by decide) fun key member => (names key member).quiet
    have zero : Item (Sql.words "0") := by decide
    have least : Item (Sql.call "MIN" [.position]) := (Sql.Item.name _).call_single (by decide)
    split
    · exact .pure (.listing all (zero.named _) (Sql.endsInName_named _ _) rows named)
    · have selected := Lists.listing all (least.named positionColumn)
        (Sql.endsInName_named _ _) rows named
      exact .pure ((selected.followedBy (Sql.quiet_words (by decide))).followedBy grouped)

theorem lists_orderBy {keys : List OrderKey}
    (applied : before.apply (.orderBy keys) = .ok after) (rows : Lists inner full) :
    Ensures ((orderBy keys).draft dialect style before after.schema.names inner)
      (Lists · full) := by
  obtain ⟨_, some, ⟨positions, known⟩, rfl⟩ := Signature.apply_orderBy.mp applied
  obtain ⟨key, isKey⟩ := List.exists_mem_of_ne_nil keys some
  obtain ⟨position, _, found⟩ := exists_of_mem_left (mapM_eq_ok.mp known) isKey
  have placed : (after.schema.position? key.column).isSome := by
    rw [Schema.resolve_eq_ok.mp found]
    rfl
  have columns : after.schema.names.map Sql.name ≠ [] := by
    simpa [Schema.names] using Schema.columns_ne_nil placed
  refine Drafting.ensures_newAlias.bindPure fun label named => ?_
  have terms : ∀ term ∈ keys.map Sql.orderTerm ++ [.position], Quiet term.symbols := by
    refine List.forall_mem_append.mpr ⟨fun term member => ?_, ?_⟩
    · obtain ⟨key, _, rfl⟩ := List.mem_map.mp member
      exact (Sql.Item.orderTerm key).quiet
    · exact List.forall_mem_singleton.mpr (Sql.Item.name _).quiet
  have comma : Quiet (wordSymbols ", ") := by decide
  have number := Sql.item_numbered (Sql.quiet_separated comma terms)
  exact (Lists.listing (Sql.item_of_mem_names _) (number.named positionColumn)
    (Sql.endsInName_named _ _) rows named).congr (and_iff_right columns)

theorem lists_window {added : Window} (applied : before.apply (.window added) = .ok after)
    (rows : Lists inner full) :
    Ensures ((window added).draft dialect style before after.schema.names inner)
      (Lists · full) := by
  obtain ⟨_, _, type, _, assigned⟩ := Signature.schema_of_window applied
  have computed : after.schema.names ≠ [] := by
    rw [Schema.names_assign_singleton assigned]
    split
    · rename_i known
      exact List.ne_nil_of_mem known
    · simp
  refine added.function.ensures_draft.bind fun value item =>
    Drafting.ensures_newAlias.bindPure fun label named => ?_
  have each (column : String) :
      Item (if column = added.name then (value ++ Sql.windowClause added).named column
        else .name column) := by
    split
    · exact (item.append (Sql.quiet_windowClause added)).named column
    · exact .name column
  refine (Lists.listing (fun part member => ?_) (.name _) (Sql.endsInName _) rows named).congr
    (and_iff_right (by simpa using computed))
  obtain ⟨column, _, rfl⟩ := List.mem_map.mp member
  exact each column

/-- The lists of a step are filled exactly if it has columns to list and the lists below are filled. -/
theorem lists_draft {verb : Verb} (applied : before.apply verb = .ok after)
    (rows : Lists inner full) :
    Ensures (verb.draft dialect style before after.schema.names inner)
      (Lists · ((verb.assigns → after.schema.names ≠ []) ∧ full)) := by
  cases verb with
  | groupBy | rename => exact .pure (rows.congr (by simp [assigns]))
  | select columns =>
    refine Drafting.ensures_newAlias.bindPure fun label named => ?_
    have selected := Lists.selectFrom (Sql.quiet_names (after.schema.names ++ [positionColumn]))
      (Sql.filled_names _) rows named
    exact selected.congr (by simp [assigns])
  | mutate assignments => simpa only [assigns, true_implies] using lists_mutate _ rows
  | filter predicate =>
    refine predicate.ensures_draft.bind fun condition item =>
      Drafting.ensures_newAlias.bindPure fun label named => ?_
    have star : Item (Sql.words "*") := by decide
    have all := Lists.selectFrom star.quiet (iff_of_true (by decide) trivial) rows named
    exact ((all.followedBy (Sql.quiet_words (by decide))).followedBy item.quiet).congr
      (by simp [assigns])
  | summarise aggregates => simpa only [assigns, true_implies] using lists_summarise applied _ rows
  | orderBy keys =>
    simpa only [assigns, Bool.false_eq_true, false_implies, true_and] using lists_orderBy applied rows
  | window added =>
    simpa only [assigns, Bool.false_eq_true, false_implies, true_and] using lists_window applied rows

end Verb

/-! ## Chains -/

theorem Schema.ensures_requireUnreserved (schema : Schema) :
    Ensures schema.requireUnreserved fun _ => True :=
  fun _ _ _ => trivial

theorem Sql.lists_source (name : String) (columns : List String) :
    Lists (words "SELECT " ++ names (columns ++ [positionColumn]) ++ words " FROM " ++ .name name)
      True := by
  have blank : " FROM " = " FROM" ++ " " := rfl
  rw [blank]
  refine ((Lists.select (quiet_names _) (filled_names _) (by decide)).followedBy
    (Item.name name).quiet).congr (by simp)

namespace Sql

variable {leftAlias rightAlias : Sql} {left right joined : Schema} {kind : JoinKind}
  {pairs : List (String × String)} (nameLeft : Item leftAlias) (nameRight : Item rightAlias)

/-- A column of a named subquery. -/
theorem item_qualified {label : Sql} (named : Item label) (column : String) :
    Item (label ++ words "." ++ name column) :=
  (named.append (quiet_words (by decide))).append (Item.name column).quiet

include nameLeft nameRight

theorem item_of_mem_joinItems (layout : List JoinColumn) (columns : List String) :
    ∀ item ∈ joinItems left right layout columns leftAlias rightAlias, Item item := by
  intro item member
  obtain ⟨⟨⟨side, index⟩, column⟩, _, rfl⟩ := List.mem_map.mp member
  cases side with
  | left => exact (item_qualified nameLeft _).named column
  | right => exact (item_qualified nameRight _).named column

theorem quiet_joinCondition : Quiet (joinCondition pairs leftAlias rightAlias).symbols := by
  refine quiet_separated (by decide) fun part member => ?_
  obtain ⟨⟨onLeft, onRight⟩, _, rfl⟩ := List.mem_map.mp member
  have equal : Quiet (words " = ").symbols := quiet_words (by decide)
  simpa only [List.append_assoc] using quiet_append
    ((item_qualified nameLeft onLeft).append equal).quiet (item_qualified nameRight onRight).quiet

/-- The query of a join, which lists columns of both sides. -/
theorem lists_join {leftRows rightRows : Sql} {full also : Prop} (onLeft : Lists leftRows full)
    (onRight : Lists rightRows also) (made : left.join right kind pairs = .ok joined) :
    let items := joinItems left right (Schema.joinLayout left right pairs) joined.names leftAlias
      rightAlias
    let positions := separated ", "
      [leftAlias ++ words "." ++ position, rightAlias ++ words "." ++ position]
    let number := words "ROW_NUMBER() OVER (ORDER BY " ++ positions ++ words ")"
    Lists (selectFrom (separated ", " items ++ words ", " ++ number.named positionColumn) leftRows
      leftAlias ++ words (joinWords kind) ++ rightRows ++ words ") AS " ++ rightAlias ++
        words " ON " ++ joinCondition pairs leftAlias rightAlias) (full ∧ also) := by
  intro items positions number
  have lengths : items.length = joined.columns.length := by
    simp only [items, joinItems, Schema.names, List.length_map, List.length_zip,
      (Schema.forall₂_joinLayout made).length_eq, Nat.min_self]
  have some : items ≠ [] :=
    (ne_nil_iff_of_length lengths).mpr (Schema.columns_ne_nil_of_join made)
  have both : Quiet positions.symbols :=
    quiet_separated (by decide) (List.forall_mem_cons.mpr ⟨(item_qualified nameLeft _).quiet,
      List.forall_mem_singleton.mpr (item_qualified nameRight _).quiet⟩)
  have kindWords : Quiet (wordSymbols (joinWords kind)) := by cases kind <;> decide
  have listed := (Lists.listing (item_of_mem_joinItems nameLeft nameRight _ _)
    ((item_numbered both).named positionColumn) (endsInName_named _ _) onLeft nameLeft).congr
      (and_iff_right some)
  exact (((((listed.followedBy (quiet_words kindWords)).append onRight).followedBy
    (quiet_words (by decide))).followedBy nameRight.quiet).followedBy
      (quiet_words (by decide))).followedBy (quiet_joinCondition nameLeft nameRight)

end Sql

namespace Chain

variable {chain next first last input right : Chain} {known : Signature} {kind : JoinKind}
  {pairs : List (String × String)} {verb : Verb} {predicate : Expr String} {query : CompiledQuery}

/-- Do the assignments and summaries of a chain have columns, and those of the chains it joins? -/
def ListsColumns : Chain → Prop
  | source .. => True
  | apply input verb =>
    (verb.assigns → (apply input verb).schema.names ≠ []) ∧ input.ListsColumns
  | join input right _ _ => input.ListsColumns ∧ right.ListsColumns

/-- The lists of the query of a chain are filled exactly if there are columns to list. -/
theorem lists_draft (built : chain.signature? = .ok known) :
    Ensures (chain.draft dialect style) (Lists · chain.ListsColumns) := by
  induction chain generalizing known with
  | source name schema =>
    exact schema.ensures_requireUnreserved.bindPure fun _ _ => Sql.lists_source name schema.names
  | apply input verb ih =>
    obtain ⟨before, below, applied⟩ := built_below built
    rw [draft, signature_of_built below, schema, signature_of_built built, ListsColumns, schema,
      signature_of_built built]
    exact (Schema.ensures_requireUnreserved _).bind fun _ _ =>
      (ih below).bind fun inner rows => Verb.lists_draft applied rows
  | join input right kind pairs ih ih' =>
    obtain ⟨_, builtLeft, _, builtRight, joined⟩ := built_sides built
    obtain ⟨_, schema, made, merged, _, rfl⟩ := Signature.join_eq_ok.mp joined
    rw [draft, Chain.schema, Chain.schema, Chain.schema, signature_of_built builtLeft,
      signature_of_built builtRight, signature_of_built built]
    exact (Schema.ensures_requireUnreserved _).bind fun _ _ =>
      (ih builtLeft).bind fun leftRows onLeft => (ih' builtRight).bind fun rightRows onRight =>
        Drafting.ensures_newAlias.bind fun leftAlias nameLeft =>
          Drafting.ensures_newAlias.bindPure fun rightAlias nameRight =>
            Sql.lists_join nameLeft nameRight onLeft onRight made

/-! ### Optimized chains -/

theorem listsColumns_apply : (apply input verb).ListsColumns ↔
    (verb.assigns → (apply input verb).schema.names ≠ []) ∧ input.ListsColumns :=
  Iff.rfl

theorem listsColumns_join :
    (join input right kind pairs).ListsColumns ↔ input.ListsColumns ∧ right.ListsColumns :=
  Iff.rfl

theorem listsColumns_filter :
    (apply input (.filter predicate)).ListsColumns ↔ input.ListsColumns := by
  simp [listsColumns_apply, Verb.assigns]

/-- A filter lists no columns by name, so the others list what they did where it has moved. -/
theorem listsColumns_swapFilter (built : chain.signature? = .ok known)
    (rebuilt : chain.swapFilter.signature? = .ok known) :
    chain.swapFilter.ListsColumns ↔ chain.ListsColumns := by
  unfold swapFilter at rebuilt ⊢
  split at rebuilt
  · rename_i below verb predicate
    rw [listsColumns_apply, schema_eq_of_built built rebuilt, schema_filter built,
      listsColumns_filter, listsColumns_filter, listsColumns_apply]
  · rw [listsColumns_join, listsColumns_filter, listsColumns_filter, listsColumns_join]
  · rfl

/-- An exchange leaves what is listed. -/
theorem Exchange.listsColumns (exchange : Exchange chain next)
    (built : chain.signature? = .ok known) : next.ListsColumns ↔ chain.ListsColumns := by
  induction exchange generalizing known with
  | here applies => exact listsColumns_swapFilter built ((Exchange.here applies).signature? built)
  | onInput exchange verb ih =>
    have same := schema_eq_of_built built ((Exchange.onInput exchange verb).signature? built)
    obtain ⟨_, below, _⟩ := built_below built
    rw [listsColumns_apply, listsColumns_apply, same, ih below]
  | onLeft exchange right kind pairs ih =>
    obtain ⟨_, left, _⟩ := built_sides built
    rw [listsColumns_join, listsColumns_join, ih left]
  | onRight exchange input kind pairs ih =>
    obtain ⟨_, _, _, beside, _⟩ := built_sides built
    rw [listsColumns_join, listsColumns_join, ih beside]

theorem Exchanges.listsColumns {count : Nat} (exchanges : Exchanges first count last)
    (built : first.signature? = .ok known) : last.ListsColumns ↔ first.ListsColumns := by
  induction exchanges with
  | refl => rfl
  | tail exchanges exchange ih => rw [exchange.listsColumns (exchanges.signature? built), ih]

/-! ### Compiled chains -/

/-- The lists of a compiled query are filled exactly if there are columns to list. -/
theorem lists_of_compile (built : chain.signature? = .ok known)
    (compiled : chain.compile dialect = .ok query) :
    Lists query.sql (known.schema.names ≠ [] ∧ chain.ListsColumns) := by
  obtain ⟨plan, _, _, optimized, exchanges, _, _, _, rebuilt⟩ := optimize_normal built
  have listed : Ensures (plan.draftAll dialect .bound known.schema.names)
      (Lists · (known.schema.names ≠ [] ∧ plan.ListsColumns)) :=
    (lists_draft rebuilt).bind fun inner rows =>
      Drafting.ensures_newAlias.bindPure fun label named =>
        (((Lists.selectFrom (Sql.quiet_names known.schema.names) (Sql.filled_names _) rows
          named).followedBy (Sql.quiet_words (by decide))).followedBy named.quiet).followedBy
            (Sql.quiet_words (by decide)) |>.followedBy (Sql.Item.name _).quiet
  simp only [compile, write, Chain.plan, optimized, Chain.schema, signature_of_built built,
    bind_eq_ok, pure_eq_ok, mapError_eq_ok, Except.ok.injEq, exists_eq_left', Prod.exists]
    at compiled
  obtain ⟨sql, draft, written, rfl⟩ := compiled
  rw [← exchanges.listsColumns built]
  exact listed {} _ written

/-- Behind every SELECT in the text of a compiled query stand items, with no comma at either end,
exactly if the result has columns and every assignment and every summary of the chain has some. -/
theorem filled_of_compile (built : chain.signature? = .ok known)
    (compiled : chain.compile dialect = .ok query) :
    (∀ list ∈ SqlSymbol.selectLists (SqlSymbol.read dialect (query.sql.text dialect)),
      Filled list) ↔ known.schema.names ≠ [] ∧ chain.ListsColumns := by
  obtain ⟨lists, selects, filled⟩ := lists_of_compile built compiled
  obtain ⟨_, _, _, _, part⟩ :=
    exists_counterpart Function.injective_id rfl .bound (.inl rfl) compiled
  rw [Sql.read_text part.legible part.unmarked dialect, selects.all, filled]

/-- One answer for each group of rows, which are summarised without a value. -/
def answers (input : Chain) : Chain :=
  apply (apply input (.summarise [])) (.mutate [("one", .literal (.int 1))])

/-- Orders that are not grouped. -/
def plainOrders : Chain :=
  source "orders" ⟨[⟨"id", .int, false⟩], [], []⟩

/-- A summary without a value lists the groups. -/
theorem filled_groupedAnswers : ∃ query,
    (answers (apply plainOrders (.groupBy ["id"]))).compile .postgres = .ok query ∧
      ∀ list ∈ SqlSymbol.selectLists (SqlSymbol.read .postgres (query.sql.text .postgres)),
        Filled list := by
  have built : (answers (apply plainOrders (.groupBy ["id"]))).signature? = .ok _ := rfl
  refine ⟨_, by cbv, (filled_of_compile built (by cbv)).mpr ?_⟩
  exact ⟨by decide, fun _ => by decide, fun _ => by decide, fun groups => absurd groups (by decide),
    trivial⟩

/-- Without groups nothing stands in front of the comma before the position. -/
theorem not_filled_answers :
    (∃ table, (answers plainOrders).run orderInputs = .ok table) ∧ ∀ dialect, ∃ query,
      (answers plainOrders).compile dialect = .ok query ∧
        ¬ ∀ list ∈ SqlSymbol.selectLists (SqlSymbol.read dialect (query.sql.text dialect)),
          Filled list := by
  refine ⟨⟨_, by cbv⟩, fun dialect => ?_⟩
  cases dialect with
  | sqlite => exact ⟨_, by cbv, by decide +kernel⟩
  | postgres => exact ⟨_, by cbv, by decide +kernel⟩

end Chain

end TablePipeline

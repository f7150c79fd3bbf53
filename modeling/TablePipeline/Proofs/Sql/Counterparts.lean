import Mathlib.Data.Set.Lattice
import TablePipeline.Proofs.Chain.Renaming
import TablePipeline.Proofs.Sql.Terms

/-! # Queries side by side

Two queries are counterparts if one becomes the other when its names are exchanged, and its
parameters for their values where the other one has its literals in place. Words are the same in
both, so whatever is put together from counterparts with the same words are counterparts again. With
them it is kept track of which parameters occur, and that the symbols can be told apart.
-/

namespace TablePipeline

/-- The piece that stands in a query with other names for a piece of a query that binds its literals
to parameters. -/
def SqlPiece.counterpart (rename : String → String) (style : LiteralStyle)
    (parameters : List Cell) : SqlPiece → SqlPiece
  | words text => words text
  | name quoted => name (rename quoted)
  | parameter number =>
    match style with
    | .bound => parameter number
    | .inPlace =>
      match parameters[number - 1]? with
      | some cell => value cell
      | none => parameter number
  | value cell => value cell

/-- May a text stand among the words of a query in either dialect? -/
def Wording (text : String) : Prop :=
  SqlSymbol.PlainText text ∧ '$' ∉ text.toList

/-- May a text stand behind an expression in either dialect? -/
def Closing (text : String) : Prop :=
  SqlSymbol.Behind text ∧ '$' ∉ text.toList

instance (text : String) : Decidable (Wording text) :=
  inferInstanceAs (Decidable (_ ∧ _))

instance (text : String) : Decidable (Closing text) :=
  inferInstanceAs (Decidable (_ ∧ _))

theorem Closing.wording {text : String} (closing : Closing text) : Wording text :=
  ⟨closing.1.1, closing.2⟩

theorem Wording.append {text other : String} (wording : Wording text) (more : Wording other) :
    Wording (text ++ other) := by
  rw [Wording, SqlSymbol.PlainText, String.toList_append]
  exact ⟨List.forall_mem_append.mpr ⟨wording.1, more.1⟩,
    List.not_mem_append wording.2 more.2⟩

theorem Closing.append {text other : String} (closing : Closing text) (more : Wording other) :
    Closing (text ++ other) := by
  refine ⟨⟨(closing.wording.append more).1, ?_⟩, (closing.wording.append more).2⟩
  have begins := closing.1.2
  rw [String.toList_append, List.head?_append]
  cases first : text.toList.head? with
  | none =>
    rw [first] at begins
    cases begins
  | some letter => rwa [Option.some_or, ← first]

/-! ## Numbers among words -/

/-- Digits and what else doubles are written with may stand among the words of a query. -/
theorem Wording.of_number {text : String} (each : ∀ letter ∈ text.toList,
    letter.isDigit = true ∨ letter ∈ ['.', 'e', '-', 'i', 'n', 'f', 'N', 'a']) : Wording text := by
  have special {letter : Char} (member : letter ∈ text.toList) :
      letter ∉ ['"', '?', '\n', '$'] := by
    intro isSpecial
    rcases each letter member with digit | mark
    · have noDigits : ∀ letter ∈ ['"', '?', '\n', '$'], letter.isDigit = false := by simp
      exact Bool.false_ne_true ((noDigits letter isSpecial).symm.trans digit)
    · have apart : ∀ letter ∈ ['.', 'e', '-', 'i', 'n', 'f', 'N', 'a'],
          letter ∉ ['"', '?', '\n', '$'] := by simp
      exact apart letter mark isSpecial
  have less : ['"', '?', '\n'] ⊆ ['"', '?', '\n', '$'] := by simp
  exact ⟨fun letter member listed => special member (less listed), fun member =>
    special member (by simp)⟩

theorem wording_toString (value : Int) : Wording (toString value) :=
  .of_number fun _ member => (Number.digit_or_minus member).imp_right (by rintro rfl; simp)

theorem wording_natural (number : Nat) : Wording (toString number) :=
  wording_toString number

theorem wording_double (value : Float) : Wording (Number.text .literal value) :=
  .of_number fun _ => Number.text_chars

theorem wording_typeName (dialect : Dialect) (type : CellType) :
    Wording (dialect.typeName type) := by
  cases dialect <;> cases type <;> decide

/-- The entries of a layout are places of columns. -/
theorem Schema.index_lt_of_mem_joinLayout {left right : Schema} {pairs : List (String × String)}
    {entry : JoinColumn} (member : entry ∈ joinLayout left right pairs) :
    entry.index < (match entry.side with
      | .left => left
      | .right => right).width := by
  rw [joinLayout, List.mem_append, List.mem_map, List.mem_map] at member
  rcases member with ⟨index, member, rfl⟩ | ⟨index, member, rfl⟩
  · exact List.mem_range.mp (List.mem_filter.mp member).1
  · exact List.mem_range.mp (List.mem_filter.mp member).1

namespace Sql

/-- Is the second query the counterpart of the first one, in which the given parameters occur? -/
structure Counterpart (rename : String → String) (style : LiteralStyle) (parameters : List Cell)
    (numbers : Set Nat) (sql sql' : Sql) : Prop where
  readable : SqlSymbol.Readable sql.symbols
  unmarked : SqlSymbol.char '$' ∉ sql.symbols
  pieces : sql' = sql.map (SqlPiece.counterpart rename style parameters)
  uses : ∀ number, number ∈ sql.parameterNumbers ↔ number ∈ numbers

/-- Are the queries of the second list the counterparts of those of the first one? -/
inductive Counterparts (rename : String → String) (style : LiteralStyle) (parameters : List Cell) :
    Set Nat → List Sql → List Sql → Prop where
  | nil : Counterparts rename style parameters ∅ [] []
  | cons {numbers others : Set Nat} {sql sql' : Sql} {rest rest' : List Sql}
      (first : Counterpart rename style parameters numbers sql sql')
      (more : Counterparts rename style parameters others rest rest') :
      Counterparts rename style parameters (numbers ∪ others) (sql :: rest) (sql' :: rest')

theorem parameterNumbers_append (sql more : Sql) :
    (sql ++ more).parameterNumbers = sql.parameterNumbers ++ more.parameterNumbers :=
  List.filterMap_append

variable {rename : String → String} {style : LiteralStyle} {parameters : List Cell}
  {numbers others : Set Nat} {sql sql' more more' operand operand' left left' right right' : Sql}
  {parts parts' : List Sql} {text : String} {dialect : Dialect}

/-- Pieces that are exchanged symbol by symbol. -/
theorem symbols_map {change : SqlPiece → SqlPiece} {changed : SqlSymbol → SqlSymbol}
    (each : ∀ piece, (change piece).symbols = piece.symbols.map changed) (sql : Sql) :
    symbols (sql.map change) = sql.symbols.map changed := by
  rw [symbols, symbols, List.flatMap_map, List.map_flatMap]
  exact List.flatMap_congr fun piece _ => each piece

theorem char_mem_words {letter : Char} :
    SqlSymbol.char letter ∈ (words text).symbols ↔ letter ∈ text.toList := by
  simp [wordSymbols]

namespace Counterpart

theorem legible (part : Counterpart rename style parameters numbers sql sql') :
    SqlSymbol.Legible sql.symbols := by
  rw [← List.append_nil sql.symbols]
  exact part.readable (fun _ member => nomatch member) SqlSymbol.legible_nil

theorem nil : Counterpart rename style parameters ∅ [] [] :=
  ⟨.nil, nofun, rfl, by simp [parameterNumbers]⟩

theorem words (wording : Wording text) :
    Counterpart rename style parameters ∅ (words text) (words text) :=
  ⟨by simpa using .words wording.1, char_mem_words.not.mpr wording.2, rfl,
    by simp [parameterNumbers, Sql.words]⟩

theorem name (quoted : String) :
    Counterpart rename style parameters ∅ (name quoted) (name (rename quoted)) :=
  ⟨.single trivial, by simp, rfl, by simp [parameterNumbers, Sql.name]⟩

theorem wordsAppend (wording : Wording text)
    (part : Counterpart rename style parameters numbers sql sql') :
    Counterpart rename style parameters numbers (Sql.words text ++ sql)
      (Sql.words text ++ sql') where
  readable := by
    rw [symbols_append, symbols_words]
    exact part.readable.wordsAppend wording.1
  unmarked := by
    rw [symbols_append, List.mem_append, not_or, char_mem_words]
    exact ⟨wording.2, part.unmarked⟩
  pieces := by
    rw [part.pieces]
    rfl
  uses := part.uses

theorem behind (part : Counterpart rename style parameters numbers sql sql')
    (closing : Closing text) (tail : Counterpart rename style parameters others more more') :
    Counterpart rename style parameters (numbers ∪ others) (sql ++ (Sql.words text ++ more))
      (sql' ++ (Sql.words text ++ more')) where
  readable := by
    rw [symbols_append, symbols_append, symbols_words]
    exact part.readable.behind closing.1 tail.readable
  unmarked := by
    rw [symbols_append, symbols_append, List.mem_append, List.mem_append, not_or, not_or,
      char_mem_words]
    exact ⟨part.unmarked, closing.2, tail.unmarked⟩
  pieces := by
    rw [part.pieces, tail.pieces, List.map_append, List.map_append]
    rfl
  uses number := by
    rw [parameterNumbers_append, parameterNumbers_append, List.mem_append, List.mem_append,
      part.uses, tail.uses, Set.mem_union]
    simp [parameterNumbers, Sql.words]

/-- The same, put together from the left. -/
theorem followedBy (part : Counterpart rename style parameters numbers sql sql')
    (closing : Closing text) (tail : Counterpart rename style parameters others more more') :
    Counterpart rename style parameters (numbers ∪ others) (sql ++ Sql.words text ++ more)
      (sql' ++ Sql.words text ++ more') := by
  simpa only [List.append_assoc] using part.behind closing tail

theorem closed (part : Counterpart rename style parameters numbers sql sql')
    (closing : Closing text) : Counterpart rename style parameters numbers
      (sql ++ Sql.words text) (sql' ++ Sql.words text) := by
  simpa using part.behind closing nil

end Counterpart

namespace Counterparts

theorem single (part : Counterpart rename style parameters numbers sql sql') :
    Counterparts rename style parameters numbers [sql] [sql'] :=
  Set.union_empty numbers ▸ .cons part .nil

theorem of_single (each : Counterparts rename style parameters numbers [sql] parts') :
    ∃ sql', parts' = [sql'] ∧ Counterpart rename style parameters numbers sql sql' := by
  cases each with
  | cons first more =>
    cases more
    exact ⟨_, rfl, (Set.union_empty _).symm ▸ first⟩

theorem append {ends ends' : List Sql}
    (each : Counterparts rename style parameters numbers parts parts')
    (behind : Counterparts rename style parameters others ends ends') :
    Counterparts rename style parameters (numbers ∪ others) (parts ++ ends) (parts' ++ ends') := by
  induction each with
  | nil => rwa [Set.empty_union]
  | cons first _ ih => exact Set.union_assoc _ _ _ ▸ .cons first ih

/-- Parts that use no parameters, each with its counterpart. -/
theorem map {ι κ : Type} {renamed : ι → κ} {f : ι → Sql} {f' : κ → Sql} {items : List ι}
    (each : ∀ item ∈ items, Counterpart rename style parameters ∅ (f item) (f' (renamed item))) :
    Counterparts rename style parameters ∅ (items.map f) ((items.map renamed).map f') := by
  induction items with
  | nil => exact .nil
  | cons item items ih =>
    obtain ⟨first, others⟩ := List.forall_mem_cons.mp each
    exact Set.union_empty (∅ : Set Nat) ▸ .cons first (ih others)

/-- Counterparts with the same words between them. -/
theorem separated (each : Counterparts rename style parameters numbers parts parts')
    (closing : Closing text) : Counterpart rename style parameters numbers (separated text parts)
      (separated text parts') := by
  induction each with
  | nil => exact .nil
  | cons first more ih =>
    cases more with
    | nil => simpa [Sql.separated, List.intercalate_singleton] using first
    | cons next rest =>
      rw [Sql.separated, Sql.separated, List.intercalate_cons_cons, List.intercalate_cons_cons,
        List.append_assoc, List.append_assoc]
      exact first.behind closing ih

end Counterparts

/-! ## Expressions -/

namespace Counterpart

theorem call {function : String} (wording : Wording function)
    (arguments : Counterparts rename style parameters numbers parts parts') :
    Counterpart rename style parameters numbers (call function parts) (call function parts') :=
  ((arguments.separated (by decide)).wordsAppend (wording.append (by decide))).closed (by decide)

theorem cast {type : String} (part : Counterpart rename style parameters numbers operand operand')
    (wording : Wording type) :
    Counterpart rename style parameters numbers (operand.cast type) (operand'.cast type) := by
  have closing : Closing (" AS " ++ type ++ ")") :=
    (Closing.append (by decide) wording).append (by decide)
  exact (part.wordsAppend (by decide)).closed closing

theorem divide (onLeft : Counterpart rename style parameters numbers left left')
    (onRight : Counterpart rename style parameters others right right') :
    Counterpart rename style parameters (numbers ∪ others) (divide dialect left right)
      (divide dialect left' right') := by
  simp only [Sql.divide, List.append_assoc]
  exact ((onLeft.cast (wording_typeName dialect .float)).behind (by decide)
    (onRight.closed (by decide))).wordsAppend (by decide)

theorem binary (onLeft : Counterpart rename style parameters numbers left left')
    (onRight : Counterpart rename style parameters others right right') (op : BinaryOp) :
    Counterpart rename style parameters (numbers ∪ others) (binary dialect op left right)
      (binary dialect op left' right') := by
  have symbols : ∀ op ∈ BinaryOp.all, Closing (" " ++ op.symbol ++ " ") := by decide
  have closing := symbols op (Expr.mem_operators op)
  have infix_ : Counterpart rename style parameters (numbers ∪ others)
      (Sql.words "(" ++ left ++ Sql.words (" " ++ op.symbol ++ " ") ++ right ++ Sql.words ")")
      (Sql.words "(" ++ left' ++ Sql.words (" " ++ op.symbol ++ " ") ++ right' ++
        Sql.words ")") := by
    simp only [List.append_assoc]
    exact (onLeft.behind closing (onRight.closed (by decide))).wordsAppend (by decide)
  cases op with
  | arithmetic op =>
    cases op with
    | divide => exact onLeft.divide onRight
    | add | subtract | multiply => exact infix_
  | comparison op => exact infix_
  | logical op => exact infix_

theorem unary (part : Counterpart rename style parameters numbers operand operand') (op : UnaryOp) :
    Counterpart rename style parameters numbers (unary op operand) (unary op operand') := by
  cases op with
  | negate | not | isNull | isNotNull =>
    exact (part.wordsAppend (by decide)).closed (by decide)

theorem truthNumber (part : Counterpart rename style parameters numbers operand operand') :
    Counterpart rename style parameters numbers operand.truthNumber operand'.truthNumber := by
  have twice : Counterpart rename style parameters (numbers ∪ numbers) operand.truthNumber
      operand'.truthNumber := by
    simp only [Sql.truthNumber, List.append_assoc]
    exact (part.behind (by decide) (part.closed (by decide))).wordsAppend (by decide)
  rwa [Set.union_self] at twice

theorem convert (part : Counterpart rename style parameters numbers operand operand')
    (source target : CellType) : Counterpart rename style parameters numbers
      (operand.convert dialect source target) (operand'.convert dialect source target) := by
  have plain := part.cast (wording_typeName dialect target)
  cases source with
  | bool =>
    cases target with
    | int | float => exact part.truthNumber.cast (wording_typeName dialect _)
    | bool | text => exact plain
  | float =>
    cases target with
    | int =>
      cases dialect with
      | sqlite => exact plain
      | postgres =>
        exact (call (by decide) (.single part)).cast (wording_typeName .postgres .int)
    | bool | float | text => exact plain
  | int | text => exact plain

theorem round (part : Counterpart rename style parameters numbers operand operand')
    (digits : Int32) : Counterpart rename style parameters numbers (round dialect digits operand)
      (round dialect digits operand') := by
  have rounded {sql sql' : Sql} (part : Counterpart rename style parameters numbers sql sql') :
      Counterpart rename style parameters numbers
        (Sql.call "ROUND" [sql, Sql.words (toString digits.toInt)])
        (Sql.call "ROUND" [sql', Sql.words (toString digits.toInt)]) := by
    have arguments := Counterparts.cons part (.single (words (wording_toString digits.toInt)))
    rw [Set.union_empty] at arguments
    exact call (by decide) arguments
  cases dialect with
  | sqlite =>
    rw [Sql.round, Sql.round]
    split
    · exact rounded part
    · have wording := wording_double (Number.tenPower (-digits))
      have scaled := part.closed (Closing.append (by decide : Closing " / ") wording)
      exact ((call (by decide) (.single scaled)).wordsAppend (by decide)).closed
        (((by decide : Closing " * ").append wording).append (by decide))
  | postgres => exact (rounded (part.cast (by decide))).cast (wording_typeName .postgres .float)

theorem aggregate (argument : Option Sql) (argument' : Option Sql)
    (part : Counterpart rename style parameters numbers (argument.getD (Sql.words "*"))
      (argument'.getD (Sql.words "*"))) (function : AggregateFunction) :
    Counterpart rename style parameters numbers (aggregate dialect function argument)
      (aggregate dialect function argument') := by
  have called {function : String} (wording : Wording function) :
      Counterpart rename style parameters numbers
        (Sql.call function [argument.getD (Sql.words "*")])
        (Sql.call function [argument'.getD (Sql.words "*")]) :=
    call wording (.single part)
  cases function with
  | count | countRows | sum | min | max => exact called (by decide)
  | mean =>
    cases dialect with
    | sqlite => exact called (by decide)
    | postgres => exact (called (by decide)).cast (wording_typeName .postgres .float)

end Counterpart

/-- A function of counterparts that an engine has is one that it has of the others. -/
theorem Counterparts.scalar {function : ScalarFunction}
    (arguments : Counterparts rename style parameters numbers parts parts')
    (found : scalar? dialect function parts = some sql) :
    ∃ sql', scalar? dialect function parts' = some sql' ∧
      Counterpart rename style parameters numbers sql sql' := by
  unfold scalar? at found
  split at found
  · obtain ⟨operand', rfl, part⟩ := arguments.of_single
    cases found
    exact ⟨_, rfl, part.round _⟩
  · obtain ⟨operand', rfl, part⟩ := arguments.of_single
    cases found
    exact ⟨_, rfl, .call (by decide) (.single part)⟩
  · obtain ⟨operand', rfl, part⟩ := arguments.of_single
    cases found
    exact ⟨_, rfl, .call (by decide) (.single part)⟩
  · cases found
    cases arguments with
    | cons first more => exact ⟨_, rfl, .call (by decide) (.cons first more)⟩
  · obtain ⟨operand', rfl, part⟩ := arguments.of_single
    split at found
    · cases found
    · cases found
      refine ⟨_, rfl, ?_⟩
      have root : Counterpart rename style parameters numbers
          (call "SQRT" [_] ++ words " END)") (call "SQRT" [operand'] ++ words " END)") :=
        (Counterpart.call (by decide) (.single part)).closed (by decide)
      have twice := (part.behind (by decide : Closing " >= 0 THEN ") root).wordsAppend
        (by decide : Wording "(CASE WHEN ")
      rw [Set.union_self] at twice
      simpa only [List.append_assoc] using twice
  · split at found
    · cases found
    · cases found
      cases arguments with
      | cons base more =>
        obtain ⟨exponent', rfl, exponent⟩ := more.of_single
        exact ⟨_, rfl, .call (by decide)
          (.cons (base.cast (wording_typeName .postgres .float)) (.single exponent))⟩
  · cases found

/-! ## Steps -/

theorem Counterparts.names (columns : List String) : Counterpart rename style parameters ∅
    (names columns) (names (columns.map rename)) :=
  (Counterparts.map fun column _ => .name column).separated (by decide)

namespace Counterpart

theorem position (fixed : rename positionColumn = positionColumn) :
    Counterpart rename style parameters ∅ position position := by
  have named := @Counterpart.name rename style parameters positionColumn
  rwa [fixed] at named

theorem named (item : Counterpart rename style parameters numbers sql sql') (column : String) :
    Counterpart rename style parameters numbers (sql.named column)
      (sql'.named (rename column)) := by
  have labelled := item.followedBy (by decide : Closing " AS ") (name column)
  rwa [Set.union_empty] at labelled

theorem orderTerm (key : OrderKey) : Counterpart rename style parameters ∅ (orderTerm key)
    (orderTerm (key.renamed rename)) := by
  have directions : ∀ direction ∈ directions, Closing (" " ++ direction) := by decide
  exact (name key.column).closed (directions _ (directionText_mem key))

/-- A value with its window. -/
theorem windowed (value : Counterpart rename style parameters numbers sql sql')
    (fixed : rename positionColumn = positionColumn) (window : Window) :
    Counterpart rename style parameters numbers (sql ++ windowClause window)
      (sql' ++ windowClause (window.renamed rename)) := by
  have ties : Counterparts rename style parameters ∅
      (if window.function.keepsTies then [] else [Sql.position])
      (if (window.function.renamed rename).keepsTies then [] else [Sql.position]) := by
    cases window.function with
    | rank => exact .nil
    | rowNumber | lead | lag => exact .single (position fixed)
  have keys : Counterparts rename style parameters ∅ (window.orderBy.map Sql.orderTerm)
      ((window.orderBy.map (OrderKey.renamed rename)).map Sql.orderTerm) :=
    .map fun key _ => orderTerm key
  have order := (((keys.append ties).separated (by decide : Closing ", ")).closed
    (by decide : Closing ")")).wordsAppend (by decide : Wording "ORDER BY ")
  have partition := ((Counterparts.names window.partitionBy).behind (by decide : Closing " ")
    order).wordsAppend (by decide : Wording "PARTITION BY ")
  rw [← Set.union_empty numbers]
  simp only [Set.union_empty (∅ : Set Nat)] at order partition
  simp only [Sql.windowClause, Window.renamed, List.isEmpty_map, List.append_assoc]
  split
  · exact value.behind (by decide) order
  · simp only [List.append_assoc]
    exact value.behind (by decide) partition

/-- Columns of which one is computed. -/
theorem replaced (value : Counterpart rename style parameters numbers sql sql')
    (injective : rename.Injective) (computed : String) (columns : List String) :
    Counterparts rename style parameters {number ∈ numbers | computed ∈ columns}
      (columns.map fun column => if column = computed then sql.named column else .name column)
      ((columns.map rename).map fun column =>
        if column = rename computed then sql'.named column else .name column) := by
  induction columns with
  | nil =>
    have none : {number ∈ numbers | computed ∈ []} = ∅ := by simp
    rw [none]
    exact .nil
  | cons column columns ih =>
    simp only [List.map_cons, injective.eq_iff]
    by_cases same : column = computed
    · subst same
      have all : {number ∈ numbers | column ∈ column :: columns} =
          numbers ∪ {number ∈ numbers | column ∈ columns} := by
        ext number
        simp +contextual
      rw [all, if_pos rfl, if_pos rfl]
      exact .cons (value.named column) ih
    · have others : {number ∈ numbers | computed ∈ column :: columns} =
          ∅ ∪ {number ∈ numbers | computed ∈ columns} := by
        ext number
        simp [Ne.symm same]
      rw [others, if_neg same, if_neg same]
      exact .cons (name column) ih

/-- A query of items from a subquery under a label. -/
theorem selectFrom {label : String} (items : Counterpart rename style parameters numbers sql sql')
    (inner : Counterpart rename style parameters others more more') (wording : Wording label) :
    Counterpart rename style parameters (others ∪ numbers)
      (selectFrom sql more (Sql.words label)) (selectFrom sql' more' (Sql.words label)) := by
  have labelled := inner.behind (by decide : Closing ") AS ") (words wording)
  rw [Set.union_empty] at labelled
  rw [Set.union_comm]
  simp only [Sql.selectFrom, List.append_assoc]
  exact (items.behind (by decide) labelled).wordsAppend (by decide)

/-- A column of the rows under a label. -/
theorem qualified {label : String} (wording : Wording label) (column : String) :
    Counterpart rename style parameters ∅ (Sql.words label ++ Sql.words "." ++ Sql.name column)
      (Sql.words label ++ Sql.words "." ++ Sql.name (rename column)) := by
  simp only [List.append_assoc]
  exact ((name column).wordsAppend (by decide)).wordsAppend wording

theorem qualifiedPosition {label : String} (fixed : rename positionColumn = positionColumn)
    (wording : Wording label) : Counterpart rename style parameters ∅
      (Sql.words label ++ Sql.words "." ++ Sql.position)
      (Sql.words label ++ Sql.words "." ++ Sql.position) := by
  have column := @qualified rename style parameters _ wording positionColumn
  rwa [fixed] at column

/-- The number of a row in the order of some terms. -/
theorem numbered (terms : Counterpart rename style parameters numbers sql sql')
    (fixed : rename positionColumn = positionColumn) :
    Counterpart rename style parameters numbers
      ((Sql.words "ROW_NUMBER() OVER (ORDER BY " ++ sql ++ Sql.words ")").named positionColumn)
      ((Sql.words "ROW_NUMBER() OVER (ORDER BY " ++ sql' ++ Sql.words ")").named
        positionColumn) := by
  have named := ((terms.wordsAppend (by decide : Wording "ROW_NUMBER() OVER (ORDER BY ")).closed
    (by decide : Closing ")")).named positionColumn
  rwa [fixed] at named

end Counterpart

/-- The columns of a summary, with what becomes of the positions of its rows. -/
theorem Counterparts.summaryItems {kept : Sql}
    (values : Counterparts rename style parameters numbers parts parts')
    (position : Counterpart rename style parameters ∅ kept kept)
    (fixed : rename positionColumn = positionColumn) (groups : List String) :
    Counterpart rename style parameters numbers
      (Sql.separated ", " (groups.map Sql.name ++ parts) ++ words ", " ++ kept.named positionColumn)
      (Sql.separated ", " ((groups.map rename).map Sql.name ++ parts') ++ words ", " ++
        kept.named positionColumn) := by
  have keys : Counterparts rename style parameters ∅ (groups.map Sql.name)
      ((groups.map rename).map Sql.name) :=
    .map fun group _ => .name group
  have items := ((keys.append values).separated (by decide : Closing ", ")).followedBy
    (by decide : Closing ", ") (position.named positionColumn)
  rwa [fixed, Set.empty_union, Set.union_empty] at items

/-! ## Joins -/

section Joins

variable {label label' : String} {leftSchema rightSchema : Schema} {pairs : List (String × String)}

theorem Counterparts.joinItems (wording : Wording label) (wording' : Wording label')
    (columns : List String) : Counterparts rename style parameters ∅
      (joinItems leftSchema rightSchema (Schema.joinLayout leftSchema rightSchema pairs) columns
        (words label) (words label'))
      (joinItems (leftSchema.renamed rename) (rightSchema.renamed rename)
        (Schema.joinLayout leftSchema rightSchema pairs) (columns.map rename)
        (words label) (words label')) := by
  rw [Sql.joinItems, Sql.joinItems, List.zip_map_right]
  refine .map fun item member => ?_
  have inside := Schema.index_lt_of_mem_joinLayout (List.of_mem_zip member).1
  obtain ⟨⟨side, index⟩, column⟩ := item
  cases side with
  | left =>
    have source := @Counterpart.qualified rename style parameters _ wording
      (leftSchema.nameAt index)
    rw [← Schema.nameAt_renamed rename inside] at source
    exact source.named column
  | right =>
    have source := @Counterpart.qualified rename style parameters _ wording'
      (rightSchema.nameAt index)
    rw [← Schema.nameAt_renamed rename inside] at source
    exact source.named column

theorem Counterpart.joinCondition (wording : Wording label) (wording' : Wording label')
    (pairs : List (String × String)) : Counterpart rename style parameters ∅
      (joinCondition pairs (Sql.words label) (Sql.words label'))
      (joinCondition (pairs.map (Prod.map rename rename)) (Sql.words label)
        (Sql.words label')) := by
  refine (Counterparts.map fun pair _ => ?_).separated (by decide)
  have sides := (qualified wording pair.1).behind (by decide : Closing " = ")
    (@qualified rename style parameters _ wording' pair.2)
  rw [Set.union_empty] at sides
  simpa only [List.append_assoc, Prod.map_fst, Prod.map_snd] using sides

/-- The number of a joined row in the order of the positions of both sides. -/
theorem Counterpart.joinPosition (fixed : rename positionColumn = positionColumn)
    (wording : Wording label) (wording' : Wording label') :
    Counterpart rename style parameters ∅
      ((Sql.words "ROW_NUMBER() OVER (ORDER BY " ++ separated ", "
        [Sql.words label ++ Sql.words "." ++ Sql.position,
          Sql.words label' ++ Sql.words "." ++ Sql.position] ++ Sql.words ")").named positionColumn)
      ((Sql.words "ROW_NUMBER() OVER (ORDER BY " ++ separated ", "
        [Sql.words label ++ Sql.words "." ++ Sql.position,
          Sql.words label' ++ Sql.words "." ++ Sql.position] ++ Sql.words ")").named
        positionColumn) := by
  refine .numbered (Counterparts.separated ?_ (by decide)) fixed
  exact Set.union_empty (∅ : Set Nat) ▸
    .cons (qualifiedPosition fixed wording) (.single (qualifiedPosition fixed wording'))

theorem closing_joinWords (kind : JoinKind) : Closing (joinWords kind) := by
  cases kind <;> decide

end Joins

end Sql

end TablePipeline

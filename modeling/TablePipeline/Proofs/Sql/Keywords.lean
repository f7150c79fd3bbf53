import TablePipeline.Proofs.Sql.Counterparts
import TablePipeline.Proofs.Sql.Tokens

/-! # The lists behind SELECT

In the symbols of a query, a list stands between every word SELECT and the next word FROM. Most parts
of a query are quiet: neither word begins in them, whatever follows. The lists of a query are then
those of its other parts, one behind the other.
-/

namespace TablePipeline

namespace SqlSymbol

/-- The symbols in front of the next occurrence of a word. -/
def upTo (word : String) : List SqlSymbol → List SqlSymbol
  | [] => []
  | symbol :: rest =>
    if wordSymbols word <+: symbol :: rest then [] else symbol :: upTo word rest

/-- What stands behind each word SELECT, up to the next word FROM. -/
def selectLists : List SqlSymbol → List (List SqlSymbol)
  | [] => []
  | symbol :: rest =>
    if wordSymbols "SELECT" <+: symbol :: rest then
      upTo "FROM" ((symbol :: rest).drop (wordSymbols "SELECT").length) :: selectLists rest
    else selectLists rest

/-- Are two symbols in a row neither E and L, as in the word SELECT, nor F and R, as in FROM? -/
def Calm (symbol next : SqlSymbol) : Prop :=
  (symbol, next) ∉ [(char 'E', char 'L'), (char 'F', char 'R')]

instance : DecidableRel Calm :=
  fun _ _ => inferInstanceAs (Decidable (_ ∉ _))

/-- Does neither of the words SELECT and FROM begin in a part of a query, whatever follows? -/
def Quiet (part : List SqlSymbol) : Prop :=
  -- a word that begins at the end of the part could go on behind it
  part.IsChain Calm ∧ ∀ last ∈ part.getLast?, last ∉ [char 'S', char 'E', char 'F']

instance (part : List SqlSymbol) : Decidable (Quiet part) :=
  inferInstanceAs (Decidable (_ ∧ ∀ last ∈ part.getLast?, _))

variable {symbol : SqlSymbol} {part more : List SqlSymbol}

/-! ## Quiet parts -/

theorem calm_of_free (free : symbol ∉ [char 'S', char 'E', char 'F']) (next : SqlSymbol) :
    Calm symbol next := by
  rintro (_ | ⟨_, _ | ⟨_, ⟨⟩⟩⟩) <;> simp at free

namespace Quiet

theorem nil : Quiet [] :=
  ⟨.nil, by simp⟩

theorem append (first : Quiet part) (second : Quiet more) : Quiet (part ++ more) := by
  refine ⟨List.isChain_append.mpr ⟨first.1, second.1, fun last isLast next _ =>
    calm_of_free (first.2 last isLast) next⟩, fun last isLast => ?_⟩
  rw [List.getLast?_append] at isLast
  rcases Option.or_eq_some_iff.mp isLast with ends | ⟨_, ends⟩
  · exact second.2 last ends
  · exact first.2 last ends

theorem tail (quiet : Quiet (symbol :: part)) : Quiet part := by
  refine ⟨quiet.1.tail, fun last isLast => quiet.2 last ?_⟩
  rw [Option.mem_def] at isLast ⊢
  rw [List.getLast?_cons, isLast, Option.getD_some]

/-- A part without the letters that lead into the words is quiet. -/
theorem of_free (free : ∀ symbol ∈ part, symbol ∉ [char 'S', char 'E', char 'F']) : Quiet part := by
  induction part with
  | nil => exact nil
  | cons symbol part ih =>
    obtain ⟨first, others⟩ := List.forall_mem_cons.mp free
    have alone : Quiet [symbol] := ⟨.singleton _, by rintro _ ⟨⟩; exact first⟩
    exact alone.append (ih others)

/-- No word SELECT begins with the first symbol of a quiet part. -/
theorem not_select (quiet : Quiet (symbol :: part)) (rest : List SqlSymbol) :
    ¬ wordSymbols "SELECT" <+: symbol :: (part ++ rest) := by
  have letters : wordSymbols "SELECT" = char 'S' :: char 'E' :: char 'L' :: wordSymbols "ECT" := rfl
  rw [letters, List.cons_prefix_cons]
  rintro ⟨rfl, starts⟩
  cases part with
  | nil => exact quiet.2 _ rfl (.head _)
  | cons next part =>
    obtain ⟨rfl, goesOn⟩ := List.cons_prefix_cons.mp starts
    cases part with
    | nil => exact quiet.2 _ rfl (.tail _ (.head _))
    | cons third part =>
      obtain ⟨rfl, _⟩ := List.cons_prefix_cons.mp goesOn
      exact (List.isChain_cons_cons.mp quiet.tail.1).1 (.head _)

/-- No word FROM begins with the first symbol of a quiet part. -/
theorem not_from (quiet : Quiet (symbol :: part)) (rest : List SqlSymbol) :
    ¬ wordSymbols "FROM" <+: symbol :: (part ++ rest) := by
  have letters : wordSymbols "FROM" = char 'F' :: char 'R' :: wordSymbols "OM" := rfl
  rw [letters, List.cons_prefix_cons]
  rintro ⟨rfl, starts⟩
  cases part with
  | nil => exact quiet.2 _ rfl (.tail _ (.tail _ (.head _)))
  | cons next part =>
    obtain ⟨rfl, _⟩ := List.cons_prefix_cons.mp starts
    exact (List.isChain_cons_cons.mp quiet.1).1 (.tail _ (.head _))

/-- A quiet part in front of a word FROM goes up to the word. -/
theorem upTo_from (quiet : Quiet part) (rest : List SqlSymbol) :
    upTo "FROM" (part ++ (wordSymbols "FROM" ++ rest)) = part := by
  induction part with
  | nil => exact if_pos (List.prefix_append ..)
  | cons symbol part ih =>
    rw [List.cons_append, upTo, if_neg (quiet.not_from _), ih quiet.tail]

end Quiet

/-! ## Lists of parts -/

/-- Are these the lists of a part of a query, whatever follows? -/
def Selects (part : List SqlSymbol) (lists : List (List SqlSymbol)) : Prop :=
  ∀ rest, selectLists (part ++ rest) = lists ++ selectLists rest

namespace Selects

variable {lists others : List (List SqlSymbol)}

/-- A quiet part has no lists. -/
theorem of_quiet (quiet : Quiet part) : Selects part [] := by
  intro rest
  induction part with
  | nil => rfl
  | cons symbol part ih =>
    rw [List.cons_append, selectLists, if_neg (quiet.not_select rest), ih quiet.tail]

theorem append (first : Selects part lists) (second : Selects more others) :
    Selects (part ++ more) (lists ++ others) := by
  intro rest
  rw [List.append_assoc, first, second, List.append_assoc]

theorem all (selects : Selects part lists) : selectLists part = lists := by
  simpa [selectLists] using selects []

/-- A quiet part between the words SELECT and FROM is a list. -/
theorem select (quiet : Quiet part) :
    Selects (wordSymbols "SELECT" ++ part ++ wordSymbols "FROM") [part] := by
  intro rest
  have quietly : Selects (wordSymbols "ELECT" ++ part ++ wordSymbols "FROM") [] := by
    have front : Selects (wordSymbols "ELECT") [] := fun _ => by simp [wordSymbols, selectLists]
    have back : Selects (wordSymbols "FROM") [] := fun _ => by simp [wordSymbols, selectLists]
    exact (front.append (of_quiet quiet)).append back
  have whole : wordSymbols "SELECT" ++ part ++ wordSymbols "FROM" ++ rest =
      char 'S' :: (wordSymbols "ELECT" ++ part ++ wordSymbols "FROM" ++ rest) := rfl
  have starts : wordSymbols "SELECT" <+:
      char 'S' :: (wordSymbols "ELECT" ++ part ++ wordSymbols "FROM" ++ rest) := by
    rw [← whole, List.append_assoc, List.append_assoc]
    exact List.prefix_append ..
  have goesOn : (char 'S' :: (wordSymbols "ELECT" ++ part ++ wordSymbols "FROM" ++ rest)).drop
      (wordSymbols "SELECT").length = part ++ (wordSymbols "FROM" ++ rest) := by
    rw [← whole, List.append_assoc, List.append_assoc, List.drop_left]
  rw [whole, selectLists, if_pos starts, goesOn, quiet.upTo_from, quietly]
  rfl

end Selects

/-- Digits and what else doubles are written with are quiet. -/
theorem quiet_number {text : String} (each : ∀ letter ∈ text.toList,
    letter.isDigit = true ∨ letter ∈ ['.', 'e', '-', 'i', 'n', 'f', 'N', 'a']) :
    Quiet (wordSymbols text) := by
  refine .of_free fun symbol member => ?_
  obtain ⟨letter, isLetter, rfl⟩ := List.mem_map.mp member
  rcases each letter isLetter with digit | mark
  · have capital : ∀ letter ∈ ['S', 'E', 'F'], letter.isDigit = false := by simp
    intro leads
    have isCapital : letter ∈ ['S', 'E', 'F'] := by simpa using leads
    exact Bool.false_ne_true ((capital letter isCapital).symm.trans digit)
  · have small : ∀ letter ∈ ['.', 'e', '-', 'i', 'n', 'f', 'N', 'a'],
        char letter ∉ [char 'S', char 'E', char 'F'] := by simp
    exact small letter mark

theorem quiet_toString (value : Int) : Quiet (wordSymbols (toString value)) :=
  quiet_number fun _ member => (Number.digit_or_minus member).imp_right (by rintro rfl; simp)

theorem quiet_double (value : Float) : Quiet (wordSymbols (Number.text .literal value)) :=
  quiet_number fun _ => Number.text_chars

/-- The names of types are quiet. -/
theorem quiet_typeName (dialect : Dialect) (type : CellType) :
    Quiet (wordSymbols (dialect.typeName type)) := by
  cases dialect <;> cases type <;> decide

theorem Quiet.text {text other : String} (quiet : Quiet (wordSymbols text))
    (more : Quiet (wordSymbols other)) : Quiet (wordSymbols (text ++ other)) := by
  rw [wordSymbols_append]
  exact quiet.append more

end SqlSymbol

open SqlSymbol (Quiet quiet_typeName)

/-! ## Items -/

namespace Sql

/-- Is a part of a query quiet, and begun by neither a blank nor a comma? -/
def Item (sql : Sql) : Prop :=
  Quiet sql.symbols ∧ ∃ first ∈ sql.symbols.head?, first ∉ [.char ' ', .char ',']

instance (sql : Sql) : Decidable sql.Item :=
  inferInstanceAs (Decidable (_ ∧ ∃ first ∈ sql.symbols.head?, _))

example : Item (words "COUNT(") := by decide

variable {dialect : Dialect} {sql more left right operand : Sql} {parts : List Sql}
  {function text type : String}

theorem quiet_words (quiet : Quiet (wordSymbols text)) : Quiet (words text).symbols := by
  rwa [symbols_words]

theorem quiet_append (front : Quiet sql.symbols) (back : Quiet more.symbols) :
    Quiet (sql ++ more).symbols := by
  rw [symbols_append]
  exact front.append back

theorem quiet_separated (quiet : Quiet (wordSymbols text))
    (each : ∀ part ∈ parts, Quiet part.symbols) : Quiet (separated text parts).symbols := by
  rw [separated]
  induction parts with
  | nil => exact .nil
  | cons first rest ih =>
    obtain ⟨here, others⟩ := List.forall_mem_cons.mp each
    cases rest with
    | nil => rwa [List.intercalate_singleton]
    | cons next rest =>
      rw [List.intercalate_cons_cons]
      exact quiet_append (quiet_append here (quiet_words quiet)) (ih others)

namespace Item

theorem quiet (item : Item sql) : Quiet sql.symbols :=
  item.1

theorem append (item : Item sql) (quiet : Quiet more.symbols) : Item (sql ++ more) := by
  obtain ⟨first, isFirst, opens⟩ := item.2
  refine ⟨quiet_append item.1 quiet, first, ?_, opens⟩
  rw [symbols_append, List.head?_append, Option.mem_def.mp isFirst]
  rfl

theorem name (quoted : String) : Item (name quoted) :=
  ⟨.of_free (by simp), _, rfl, by simp⟩

theorem parameter (number : Nat) : Item [.parameter number] :=
  ⟨.of_free (by simp [symbols, SqlPiece.symbols]), _, rfl, by simp⟩

theorem value (cell : Cell) : Item [.value cell] :=
  ⟨.of_free (by simp [symbols, SqlPiece.symbols]), _, rfl, by simp⟩

/-- The name of a subquery. -/
theorem label (number : Nat) : Item (words ("t" ++ toString number)) := by
  refine ⟨quiet_words (.text (by decide) (SqlSymbol.quiet_toString number)), .char 't', ?_, by simp⟩
  rw [symbols_words, wordSymbols_append]
  rfl

theorem call (named : Item (words (function ++ "(")))
    (each : ∀ part ∈ parts, Quiet part.symbols) : Item (call function parts) :=
  (named.append (quiet_separated (by decide) each)).append (quiet_words (by decide))

/-- A call of a function of one item. -/
theorem call_single (item : Item operand) (named : Item (words (function ++ "("))) :
    Item (Sql.call function [operand]) :=
  call named (List.forall_mem_singleton.mpr item.quiet)

theorem cast (item : Item operand) (quiet : Quiet (wordSymbols type)) :
    Item (operand.cast type) := by
  have front : Item (words "CAST(") := by decide
  have back : Quiet (wordSymbols (" AS " ++ type ++ ")")) :=
    (SqlSymbol.Quiet.text (by decide) quiet).text (by decide)
  exact (front.append item.quiet).append (quiet_words back)

theorem divide (onLeft : Item left) (onRight : Item right) : Item (divide dialect left right) := by
  have front : Item (words "(") := by decide
  exact ((front.append (onLeft.cast (quiet_typeName dialect .float)).quiet).append
    (quiet_words (by decide))).append onRight.quiet |>.append (quiet_words (by decide))

theorem binary (onLeft : Item left) (onRight : Item right) (op : BinaryOp) :
    Item (binary dialect op left right) := by
  have symbols : ∀ op ∈ BinaryOp.all, Quiet (wordSymbols (" " ++ op.symbol ++ " ")) := by decide
  have front : Item (words "(") := by decide
  have infix_ : Item (words "(" ++ left ++ words (" " ++ op.symbol ++ " ") ++ right ++ words ")") :=
    (((front.append onLeft.quiet).append
      (quiet_words (symbols op (Expr.mem_operators op)))).append onRight.quiet).append
        (quiet_words (by decide))
  cases op with
  | arithmetic op =>
    cases op with
    | divide => exact onLeft.divide onRight
    | add | subtract | multiply => exact infix_
  | comparison op => exact infix_
  | logical op => exact infix_

theorem unary (item : Item operand) (op : UnaryOp) : Item (unary op operand) := by
  have between {front back : String} (opens : Item (words front))
      (quiet : Quiet (wordSymbols back)) : Item (words front ++ operand ++ words back) :=
    (opens.append item.quiet).append (quiet_words quiet)
  cases op with
  | negate | not | isNull | isNotNull => exact between (by decide) (by decide)

theorem truthNumber (item : Item operand) : Item operand.truthNumber := by
  have front : Item (words "(CASE WHEN ") := by decide
  exact (((front.append item.quiet).append (quiet_words (by decide))).append item.quiet).append
    (quiet_words (by decide))

theorem convert (item : Item operand) (source target : CellType) :
    Item (operand.convert dialect source target) := by
  have plain := item.cast (quiet_typeName dialect target)
  cases source with
  | bool =>
    cases target with
    | int | float => exact item.truthNumber.cast (quiet_typeName dialect _)
    | bool | text => exact plain
  | float =>
    cases target with
    | int =>
      cases dialect with
      | sqlite => exact plain
      | postgres =>
        exact (item.call_single (by decide)).cast (quiet_typeName .postgres .int)
    | bool | float | text => exact plain
  | int | text => exact plain

theorem round (item : Item operand) (digits : Int32) : Item (round dialect digits operand) := by
  have rounded {sql : Sql} (item : Item sql) :
      Item (Sql.call "ROUND" [sql, words (toString digits.toInt)]) :=
    call (by decide) (List.forall_mem_cons.mpr ⟨item.quiet, List.forall_mem_singleton.mpr
      (quiet_words (SqlSymbol.quiet_toString digits.toInt))⟩)
  cases dialect with
  | sqlite =>
    rw [Sql.round]
    split
    · exact rounded item
    · have scale := SqlSymbol.quiet_double (Number.tenPower (-digits))
      have scaled := item.append (quiet_words (.text (by decide : Quiet (wordSymbols " / ")) scale))
      have front : Item (words "(") := by decide
      exact (front.append (scaled.call_single (by decide)).quiet).append
        (quiet_words ((SqlSymbol.Quiet.text (by decide) scale).text (by decide)))
  | postgres => exact (rounded (item.cast (by decide))).cast (quiet_typeName .postgres .float)

/-- A function that an engine has is written as an item. -/
theorem scalar {function : ScalarFunction} (each : ∀ part ∈ parts, Item part)
    (found : scalar? dialect function parts = some sql) : Item sql := by
  unfold scalar? at found
  split at found
  · cases found
    exact (List.forall_mem_singleton.mp each).round _
  · cases found
    exact (List.forall_mem_singleton.mp each).call_single (by decide)
  · cases found
    exact (List.forall_mem_singleton.mp each).call_single (by decide)
  · cases found
    exact call (by decide) fun part member => (each part member).quiet
  · split at found
    · cases found
    · cases found
      have operand := List.forall_mem_singleton.mp each
      have front : Item (words "(CASE WHEN ") := by decide
      exact (((front.append operand.quiet).append (quiet_words (by decide))).append
        (operand.call_single (by decide)).quiet).append (quiet_words (by decide))
  · split at found
    · cases found
    · cases found
      obtain ⟨base, more⟩ := List.forall_mem_cons.mp each
      exact call (by decide) (List.forall_mem_cons.mpr
        ⟨(base.cast (quiet_typeName .postgres .float)).quiet,
          fun part member => (more part member).quiet⟩)
  · cases found

theorem aggregate {argument : Option Sql} (each : ∀ operand ∈ argument, Item operand)
    (function : AggregateFunction) : Item (aggregate dialect function argument) := by
  have item : Item (argument.getD (words "*")) := by
    cases argument with
    | none => decide
    | some operand => exact each operand rfl
  cases function with
  | count | countRows | sum | min | max => exact item.call_single (by decide)
  | mean =>
    cases dialect with
    | sqlite => exact item.call_single (by decide)
    | postgres => exact (item.call_single (by decide)).cast (quiet_typeName .postgres .float)

/-- One key of an order. -/
theorem orderTerm (key : OrderKey) : Item (orderTerm key) := by
  refine (name key.column).append (quiet_words ?_)
  rw [OrderKey.directionText]
  cases key.descending <;> cases key.nulls <;> decide

/-- An item under a name. -/
theorem named (item : Item sql) (column : String) : Item (sql.named column) :=
  (item.append (quiet_words (by decide))).append (name column).quiet

end Item

theorem quiet_names (columns : List String) : Quiet (names columns).symbols := by
  refine quiet_separated (by decide) fun part member => ?_
  obtain ⟨column, _, rfl⟩ := List.mem_map.mp member
  exact (Item.name column).quiet

theorem quiet_windowClause (window : Window) : Quiet (windowClause window).symbols := by
  have partition : Quiet (if window.partitionBy.isEmpty then []
      else words "PARTITION BY " ++ names window.partitionBy ++ words " " : Sql).symbols := by
    split
    · exact .nil
    · exact quiet_append (quiet_append (quiet_words (by decide)) (quiet_names _))
        (quiet_words (by decide))
  have terms : ∀ term ∈ window.orderBy.map orderTerm ++
      (if window.function.keepsTies then [] else [position]), Quiet term.symbols := by
    intro term member
    rcases List.mem_append.mp member with isKey | isTie
    · obtain ⟨key, _, rfl⟩ := List.mem_map.mp isKey
      exact (Item.orderTerm key).quiet
    · split at isTie
      · cases isTie
      · obtain rfl := List.mem_singleton.mp isTie
        exact (Item.name _).quiet
  exact quiet_append (quiet_append (quiet_append (quiet_append (quiet_words (by decide)) partition)
    (quiet_words (by decide))) (quiet_separated (by decide) terms)) (quiet_words (by decide))

end Sql

end TablePipeline

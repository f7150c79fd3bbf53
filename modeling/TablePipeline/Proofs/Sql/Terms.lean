import TablePipeline.Proofs.Expr.Texts
import TablePipeline.Proofs.Sql.Symbols

/-! # The terms of compiled queries

What stands in the items and the conditions of a compiled query is a term: a tree that is written
with its subterms in brackets or behind the name of a function. The words around its subterms keep
the symbols apart, so that a term can be read in front of what ends it.
-/

namespace TablePipeline

/-- The types of values as SQLite stores them. -/
inductive Storage where
  | integer
  | real
  | text
deriving DecidableEq

/-- The written name of a stored type. -/
def Storage.name : Storage → String
  | integer => "INTEGER"
  | real => "REAL"
  | text => "TEXT"

/-- The type under which SQLite stores values of a type. -/
def CellType.storage : CellType → Storage
  | .bool | .int => .integer
  | .float => .real
  | .text => .text

/-- Is a text a word that can be told from a quoted name and from a parameter? -/
def BareWord (text : String) : Prop :=
  ∀ letter ∈ text.toList, letter ∉ '"' :: '?' :: Reading.wordEnds

-- by the characters of the text, and not by all characters
instance (text : String) : Decidable (BareWord text) :=
  List.decidableBAll (· ∉ '"' :: '?' :: Reading.wordEnds) text.toList

/-- A number or a mark that stands for itself. -/
@[ext]
structure SqlWord where
  text : String
  bare : BareWord text
  begins : text ∈ ["NULL", "*", "inf", "NaN"] ∨
    ∃ letter rest, text.toList = letter :: rest ∧ (letter.isDigit = true ∨ letter = '-')

namespace SqlWord

/-- The null. -/
def null : SqlWord :=
  ⟨"NULL", by decide, .inl (by decide)⟩

/-- All columns of a subquery, or all rows of a group. -/
def star : SqlWord :=
  ⟨"*", by decide, .inl (by decide)⟩

theorem not_special_of_isDigit {letter : Char} (digit : letter.isDigit = true) :
    letter ∉ '"' :: '?' :: Reading.wordEnds := by
  intro special
  have noDigits : ∀ letter ∈ '"' :: '?' :: Reading.wordEnds, letter.isDigit = false := by
    simp [Reading.wordEnds]
  exact Bool.false_ne_true ((noDigits letter special).symm.trans digit)

/-- An integer. -/
def ofInt (value : Int) : SqlWord where
  text := toString value
  bare letter member := by
    rcases Number.digit_or_minus member with digit | rfl
    · exact not_special_of_isDigit digit
    · decide
  begins := .inr (Cell.Bare.int_begins value)

/-- A double. -/
def ofFloat (value : Float) : SqlWord where
  text := Number.text .literal value
  bare letter member := by
    have marks : ∀ letter ∈ ['.', 'e', '-', 'i', 'n', 'f', 'N', 'a'],
        letter ∉ '"' :: '?' :: Reading.wordEnds := by simp [Reading.wordEnds]
    rcases Number.text_chars member with digit | mark
    · exact not_special_of_isDigit digit
    · exact marks letter mark
  begins := (Number.text_begins value).imp_left fun reserved =>
    List.mem_cons_of_mem _ (List.mem_cons_of_mem _ reserved)

end SqlWord

/-- A column, of a subquery with a label or of the only one. -/
structure SqlReference where
  label : Option Nat
  column : String

/-- A key of an order, or a column that ends it. -/
inductive OrderTerm where
  | key (key : OrderKey)
  | position (reference : SqlReference)

/-- The rows a window function sees, and their order. -/
structure SqlWindow where
  partition : List String
  order : List OrderTerm

/-- Functions of terms. -/
inductive SqlFunction where
  | abs
  | trim
  | coalesce
  | round
  | count
  | sum
  | avg
  | min
  | max
deriving DecidableEq

/-- The written name of a function. -/
def SqlFunction.name : SqlFunction → String
  | abs => "ABS"
  | trim => "TRIM"
  | coalesce => "COALESCE"
  | round => "ROUND"
  | count => "COUNT"
  | sum => "SUM"
  | avg => "AVG"
  | min => "MIN"
  | max => "MAX"

/-- Functions of terms over a window. -/
inductive SqlWindowFunction where
  | rowNumber
  | rank
  | lead
  | lag
deriving DecidableEq

/-- The written name of a window function. -/
def SqlWindowFunction.name : SqlWindowFunction → String
  | rowNumber => "ROW_NUMBER"
  | rank => "RANK"
  | lead => "LEAD"
  | lag => "LAG"

/-- What stands in the items and the conditions of a query. -/
inductive SqlTerm where
  | column (reference : SqlReference)
  | parameter (number : Nat)
  /-- A number or a mark. -/
  | atom (word : SqlWord)
  | cast (operand : SqlTerm) (type : Storage)
  /-- One and zero for a truth value. -/
  | truth (operand : SqlTerm)
  | binary (op : BinaryOp) (left right : SqlTerm)
  | unary (op : UnaryOp) (operand : SqlTerm)
  | call (function : SqlFunction) (arguments : List SqlTerm)
  /-- A value rounded after it is divided by a scale. -/
  | rounded (operand : SqlTerm) (scale : SqlWord)
  | windowed (function : SqlWindowFunction) (arguments : List SqlTerm) (window : SqlWindow)

/-! ## The symbols of terms -/

/-- Symbols with commas between them. -/
def commaSymbols (parts : List (List SqlSymbol)) : List SqlSymbol :=
  (wordSymbols ", ").intercalate parts

/-- The word in front of a column. -/
def SqlReference.prefix_ (reference : SqlReference) : String :=
  match reference.label with
  | none => ""
  | some label => "t" ++ toString label ++ "."

/-- The symbols of a column. -/
def SqlReference.symbols (reference : SqlReference) : List SqlSymbol :=
  wordSymbols reference.prefix_ ++ [.name reference.column]

/-- The symbols of a part of an order. -/
def OrderTerm.symbols : OrderTerm → List SqlSymbol
  | key term => .name term.column :: (wordSymbols " " ++ wordSymbols term.directionText)
  | position reference => reference.symbols

/-- The symbols of a window. -/
def SqlWindow.symbols (window : SqlWindow) : List SqlSymbol :=
  (if window.partition.isEmpty then []
    else wordSymbols "PARTITION BY " ++ (commaSymbols (window.partition.map ([.name ·])) ++
      wordSymbols " ")) ++
    (wordSymbols "ORDER BY " ++ commaSymbols (window.order.map OrderTerm.symbols))

/-- The words between the operands of an operator. -/
def BinaryOp.infix_ : BinaryOp → String
  | arithmetic .divide => " / NULLIF("
  | op => " " ++ op.symbol ++ " "

/-- The words behind the operands of an operator. -/
def BinaryOp.closing : BinaryOp → String
  | arithmetic .divide => ", 0))"
  | _ => ")"

/-- The written forms of the direction of a key. -/
def directions : List String :=
  ["ASC NULLS FIRST", "ASC NULLS LAST", "DESC NULLS FIRST", "DESC NULLS LAST"]

theorem directionText_mem (key : OrderKey) : key.directionText ∈ directions := by
  obtain ⟨column, descending, nulls⟩ := key
  cases descending <;> cases nulls <;> simp [OrderKey.directionText, directions]

namespace SqlTerm

mutual

/-- The symbols of a term. -/
def symbols : SqlTerm → List SqlSymbol
  | column reference => reference.symbols
  | parameter number => [.parameter number]
  | atom word => wordSymbols word.text
  | cast operand type =>
    wordSymbols "CAST(" ++ (operand.symbols ++
      (wordSymbols " AS " ++ (wordSymbols type.name ++ wordSymbols ")")))
  | truth operand =>
    wordSymbols "(CASE WHEN " ++ (operand.symbols ++
      (wordSymbols " THEN 1 WHEN NOT " ++ (operand.symbols ++ wordSymbols " THEN 0 END)")))
  | binary op left right =>
    wordSymbols "(" ++ (left.symbols ++
      (wordSymbols op.infix_ ++ (right.symbols ++ wordSymbols op.closing)))
  | unary .negate operand => wordSymbols "(-" ++ (operand.symbols ++ wordSymbols ")")
  | unary .not operand => wordSymbols "(NOT " ++ (operand.symbols ++ wordSymbols ")")
  | unary .isNull operand => wordSymbols "(" ++ (operand.symbols ++ wordSymbols " IS NULL)")
  | unary .isNotNull operand => wordSymbols "(" ++ (operand.symbols ++ wordSymbols " IS NOT NULL)")
  | call function arguments =>
    wordSymbols function.name ++ (wordSymbols "(" ++
      (commaSymbols (symbolsAll arguments) ++ wordSymbols ")"))
  | rounded operand scale =>
    wordSymbols "ROUND(" ++ (operand.symbols ++
      (wordSymbols " / " ++ (wordSymbols scale.text ++ wordSymbols ")")))
  | windowed function arguments window =>
    wordSymbols function.name ++ (wordSymbols "(" ++
      (commaSymbols (symbolsAll arguments) ++
        (wordSymbols ") OVER (" ++ (window.symbols ++ wordSymbols ")"))))

@[inherit_doc symbols]
def symbolsAll : List SqlTerm → List (List SqlSymbol)
  | [] => []
  | first :: rest => first.symbols :: symbolsAll rest

end

/-- The first word of a term. -/
def lead : SqlTerm → String
  | column reference => reference.prefix_
  | atom word => word.text
  | cast .. => "CAST"
  | rounded .. => "ROUND"
  | call function _ => function.name
  | windowed function .. => function.name
  | parameter _ | truth _ | binary .. | unary .. => ""

/-- The symbol behind the first word of a term, if it belongs to the term. -/
def opening : SqlTerm → Option SqlSymbol
  | column reference => some (.name reference.column)
  | parameter number => some (.parameter number)
  | atom _ => none
  | _ => some (.char '(')

/-- The symbols of a term behind its opening. -/
def inside : SqlTerm → List SqlSymbol
  | column _ | parameter _ | atom _ => []
  | cast operand type =>
    operand.symbols ++ (wordSymbols " AS " ++ (wordSymbols type.name ++ wordSymbols ")"))
  | truth operand =>
    wordSymbols "CASE WHEN " ++ (operand.symbols ++
      (wordSymbols " THEN 1 WHEN NOT " ++ (operand.symbols ++ wordSymbols " THEN 0 END)")))
  | binary op left right =>
    left.symbols ++ (wordSymbols op.infix_ ++ (right.symbols ++ wordSymbols op.closing))
  | unary .negate operand => wordSymbols "-" ++ (operand.symbols ++ wordSymbols ")")
  | unary .not operand => wordSymbols "NOT " ++ (operand.symbols ++ wordSymbols ")")
  | unary .isNull operand => operand.symbols ++ wordSymbols " IS NULL)"
  | unary .isNotNull operand => operand.symbols ++ wordSymbols " IS NOT NULL)"
  | call _ arguments => commaSymbols (symbolsAll arguments) ++ wordSymbols ")"
  | rounded operand scale =>
    operand.symbols ++ (wordSymbols " / " ++ (wordSymbols scale.text ++ wordSymbols ")"))
  | windowed _ arguments window =>
    commaSymbols (symbolsAll arguments) ++
      (wordSymbols ") OVER (" ++ (window.symbols ++ wordSymbols ")"))

theorem symbolsAll_eq_map (terms : List SqlTerm) : symbolsAll terms = terms.map symbols := by
  induction terms with
  | nil => rfl
  | cons first rest ih => rw [symbolsAll, ih, List.map_cons]

theorem symbols_eq (term : SqlTerm) :
    term.symbols = wordSymbols term.lead ++ (term.opening.toList ++ term.inside) := by
  have castText : wordSymbols "CAST(" = wordSymbols "CAST" ++ [.char '('] := by decide
  have roundText : wordSymbols "ROUND(" = wordSymbols "ROUND" ++ [.char '('] := by decide
  cases term with
  | column reference => simp [symbols, lead, opening, inside, SqlReference.symbols]
  | atom word => simp [symbols, lead, opening, inside]
  | cast operand type => rw [symbols, castText, List.append_assoc]; rfl
  | rounded operand scale => rw [symbols, roundText, List.append_assoc]; rfl
  | unary op operand => cases op <;> rw [symbols] <;> rfl
  | parameter number | truth operand | binary op left right | call function arguments
  | windowed function arguments window => rw [symbols]; rfl

end SqlTerm

/-! ## Legibility -/

open SqlSymbol

theorem BareWord.plainText {text : String} (bare : BareWord text) : PlainText text := by
  intro letter member special
  refine bare letter member ?_
  simp only [List.mem_cons, List.not_mem_nil, or_false, Reading.wordEnds] at special ⊢
  tauto

theorem bare_label (label : Nat) : BareWord ("t" ++ toString label ++ ".") := by
  have mark : BareWord "t" := by decide
  have point : BareWord "." := by decide
  intro letter member
  simp only [String.toList_append, List.mem_append, Nat.toString_eq_repr, Nat.toList_repr] at member
  rcases member with (isMark | digit) | isPoint
  · exact mark letter isMark
  · exact SqlWord.not_special_of_isDigit (Number.isDigit_of_mem_digitText digit)
  · exact point letter isPoint

theorem SqlReference.bare_prefix (reference : SqlReference) : BareWord reference.prefix_ := by
  obtain ⟨label, column⟩ := reference
  cases label with
  | none => exact fun _ member => nomatch member
  | some label => exact bare_label label

theorem SqlReference.readable (reference : SqlReference) : Readable reference.symbols :=
  .wordsAppend reference.bare_prefix.plainText (.single trivial)

theorem OrderTerm.readable (term : OrderTerm) : Readable term.symbols := by
  cases term with
  | key key =>
    have plain : ∀ direction ∈ directions, PlainText direction := by decide
    have column : Readable [name key.column] := .single trivial
    have blank : Behind " " := by decide
    exact column.behind blank (.words (plain _ (directionText_mem key)))
  | position reference => exact reference.readable

/-- Names with commas between them can be read. -/
theorem readable_names (columns : List String) :
    Readable (commaSymbols (columns.map ([name ·]))) := by
  refine .intercalate (by decide) fun part member => ?_
  obtain ⟨column, _, rfl⟩ := List.mem_map.mp member
  exact .single trivial

theorem SqlWindow.readable (window : SqlWindow) : Readable window.symbols := by
  have order : Readable (wordSymbols "ORDER BY " ++
      commaSymbols (window.order.map OrderTerm.symbols)) := by
    refine .wordsAppend (by decide) (.intercalate (by decide) fun part member => ?_)
    obtain ⟨term, _, rfl⟩ := List.mem_map.mp member
    exact term.readable
  rw [symbols]
  split
  · exact order
  · rw [List.append_assoc, List.append_assoc]
    exact .wordsAppend (by decide) ((readable_names window.partition).behind (by decide) order)

namespace SqlTerm

theorem plain_function (function : SqlFunction) : PlainText function.name := by
  cases function <;> decide

theorem plain_windowFunction (function : SqlWindowFunction) : PlainText function.name := by
  cases function <;> decide

theorem plain_storage (type : Storage) : PlainText type.name := by
  cases type <;> decide

theorem behind_operator (op : BinaryOp) : Behind op.infix_ ∧ Behind op.closing := by
  have each : ∀ op ∈ BinaryOp.all, Behind op.infix_ ∧ Behind op.closing := by decide
  exact each op (Expr.mem_operators op)

mutual

/-- A term can be read in front of what ends it. -/
theorem readable : ∀ term : SqlTerm, Readable term.symbols
  | column reference => reference.readable
  | parameter number => .single trivial
  | atom word => .words word.bare.plainText
  | cast operand type => by
    rw [symbols]
    exact .wordsAppend (by decide) (operand.readable.behind (by decide)
      (.wordsAppend (plain_storage type) (.words (by decide))))
  | truth operand => by
    rw [symbols]
    exact .wordsAppend (by decide) (operand.readable.behind (by decide)
      (operand.readable.closed (by decide)))
  | binary op left right => by
    rw [symbols]
    obtain ⟨between, closing⟩ := behind_operator op
    exact .wordsAppend (by decide) (left.readable.behind between (right.readable.closed closing))
  | unary op operand => by
    have closed {text : String} (behind : Behind text) := operand.readable.closed behind
    cases op <;> rw [symbols] <;> exact .wordsAppend (by decide) (closed (by decide))
  | call function arguments => by
    rw [symbols]
    have list : Readable (commaSymbols (symbolsAll arguments)) :=
      .intercalate (by decide) (readableAll arguments)
    exact .wordsAppend (plain_function function) (.wordsAppend (by decide)
      (list.closed (by decide)))
  | rounded operand scale => by
    rw [symbols]
    exact .wordsAppend (by decide) (operand.readable.behind (by decide)
      (.wordsAppend scale.bare.plainText (.words (by decide))))
  | windowed function arguments window => by
    rw [symbols]
    have list : Readable (commaSymbols (symbolsAll arguments)) :=
      .intercalate (by decide) (readableAll arguments)
    exact .wordsAppend (plain_windowFunction function) (.wordsAppend (by decide)
      (list.behind (by decide) (window.readable.closed (by decide))))

@[inherit_doc readable]
theorem readableAll : ∀ terms : List SqlTerm, ∀ part ∈ symbolsAll terms, Readable part
  | [] => fun _ member => nomatch member
  | first :: rest => List.forall_mem_cons.mpr ⟨first.readable, readableAll rest⟩

end

end SqlTerm

end TablePipeline

import TablePipeline.Proofs.Text.Notes
import TablePipeline.Sql.Query

/-! # Queries are read symbol by symbol

A written query is a list of symbols: the characters of its words, and its names, parameters and
literals, each as a whole. Words hold no quotes, question marks or line breaks, no name follows
another one, and no digit follows a parameter. Hence the symbols are told from the text, and so are
the values of the parameters, which are noted behind it.
-/

namespace TablePipeline

/-- A character of the words of a query, or something else as a whole. -/
inductive SqlSymbol where
  | char (letter : Char)
  | name (name : String)
  | parameter (number : Nat)
  | value (cell : Cell)
deriving DecidableEq

/-- The characters of words, as symbols. -/
def wordSymbols (text : String) : List SqlSymbol :=
  text.toList.map .char

@[simp]
theorem wordSymbols_append (front back : String) :
    wordSymbols (front ++ back) = wordSymbols front ++ wordSymbols back := by
  simp [wordSymbols]

@[simp]
theorem wordSymbols_empty : wordSymbols "" = [] :=
  rfl

/-- The symbols of a piece. -/
def SqlPiece.symbols : SqlPiece → List SqlSymbol
  | words text => wordSymbols text
  | name quoted => [.name quoted]
  | parameter number => [.parameter number]
  | value cell => [.value cell]

namespace Sql

/-- The symbols of a query. -/
def symbols (sql : Sql) : List SqlSymbol :=
  sql.flatMap SqlPiece.symbols

@[simp]
theorem symbols_nil : symbols [] = [] :=
  rfl

@[simp]
theorem symbols_append (front back : Sql) :
    symbols (front ++ back) = front.symbols ++ back.symbols :=
  List.flatMap_append

@[simp]
theorem symbols_words (text : String) : (words text).symbols = wordSymbols text :=
  List.append_nil _

@[simp]
theorem symbols_name (text : String) : (name text).symbols = [.name text] :=
  rfl

@[simp]
theorem symbols_separated (separator : String) (parts : List Sql) :
    (separated separator parts).symbols =
      (wordSymbols separator).intercalate (parts.map symbols) := by
  rw [separated]
  induction parts with
  | nil => rfl
  | cons first rest ih =>
    cases rest with
    | nil => simp [List.intercalate_singleton]
    | cons next rest =>
      rw [List.map_cons, List.map_cons, List.intercalate_cons_cons, List.intercalate_cons_cons,
        ← List.map_cons, ← ih, symbols_append, symbols_append, symbols_words]

end Sql

/-! ## Reading symbols -/

namespace SqlSymbol

/-- The written form of a symbol for SQLite. -/
def chars : SqlSymbol → List Char
  | char letter => [letter]
  | name quoted => (Dialect.quote quoted).toList
  | parameter number => (Dialect.sqlite.placeholder number).toList
  | value cell => cell.noted.toList

/-- Is the symbol none that could be taken for the beginning of another one, or for the end of the
query? -/
def Plain : SqlSymbol → Prop
  | char letter => letter ∉ ['"', '?', '\n']
  | value _ => False
  | name _ | parameter _ => True

/-- Does the symbol end where a text goes on like this? -/
def EndsBefore (rest : List Char) : SqlSymbol → Prop
  | name _ => rest.head? ≠ some '"'
  | parameter _ => ∀ letter ∈ rest.head?, letter.isDigit = false
  | char _ | value _ => True

/-- Do two symbols in a row stay apart? -/
def Apart : SqlSymbol → SqlSymbol → Prop
  | name _, name _ => False
  | parameter _, char letter => letter.isDigit = false
  | _, _ => True

/-- The first character of a symbol. -/
def initial : SqlSymbol → Char
  | char letter => letter
  | name _ => '"'
  | parameter _ => '?'
  | value _ => ' '

variable {symbol symbol' : SqlSymbol} {symbols symbols' : List SqlSymbol} {rest rest' : List Char}

theorem toList_quote (text : String) :
    (Dialect.quote text).toList = '"' :: (Text.doubling '"' text.toList ++ ['"']) := by
  rw [Dialect.quote.eq_def, Text.enclosed, String.toList_ofList, List.cons_append]

theorem toList_placeholder (number : Nat) :
    (Dialect.sqlite.placeholder number).toList = '?' :: Number.digitText number := by
  rw [Dialect.placeholder.eq_def, String.toList_append, Nat.toString_eq_repr, Nat.toList_repr]
  rfl

theorem chars_eq_cons (plain : symbol.Plain) : ∃ more, symbol.chars = symbol.initial :: more := by
  cases symbol with
  | char letter => exact ⟨[], rfl⟩
  | name quoted => exact ⟨_, toList_quote quoted⟩
  | parameter number => exact ⟨_, toList_placeholder number⟩
  | value cell => exact plain.elim

theorem plain_char {letter : Char} :
    (char letter).Plain ↔ letter ≠ '"' ∧ letter ≠ '?' ∧ letter ≠ '\n' := by
  simp [Plain]

/-- Symbols are told from their written forms. -/
theorem chars_append_inj (plain : symbol.Plain) (plain' : symbol'.Plain)
    (ends : symbol.EndsBefore rest) (ends' : symbol'.EndsBefore rest')
    (same : symbol.chars ++ rest = symbol'.chars ++ rest') : symbol = symbol' ∧ rest = rest' := by
  have first : symbol.initial = symbol'.initial := by
    obtain ⟨more, begins⟩ := chars_eq_cons plain
    obtain ⟨more', begins'⟩ := chars_eq_cons plain'
    rw [begins, begins'] at same
    exact (List.cons.inj same).1
  cases symbol with
  | char letter =>
    cases symbol' with
    | char letter' =>
      obtain ⟨rfl, rfl⟩ := List.cons.inj same
      exact ⟨rfl, rfl⟩
    | name quoted' => exact absurd first (plain_char.mp plain).1
    | parameter number' => exact absurd first (plain_char.mp plain).2.1
    | value cell' => exact plain'.elim
  | name quoted =>
    cases symbol' with
    | char letter' => exact absurd first.symm (plain_char.mp plain').1
    | name quoted' =>
      simp only [chars, toList_quote, List.cons_append, List.append_assoc, List.nil_append] at same
      obtain ⟨names, rests⟩ := Reading.doubling_append_inj ends ends' (List.cons.inj same).2
      exact ⟨congrArg name (String.toList_inj.mp names), rests⟩
    | parameter number' => cases first
    | value cell' => exact plain'.elim
  | parameter number =>
    cases symbol' with
    | char letter' => exact absurd first.symm (plain_char.mp plain').2.1
    | name quoted' => cases first
    | parameter number' =>
      simp only [chars, toList_placeholder, List.cons_append] at same
      have digits (number : Nat) : ∀ letter ∈ Number.digitText number, letter.isDigit = true :=
        fun _ => Number.isDigit_of_mem_digitText
      obtain ⟨numbers, rests⟩ := Reading.run_append_inj (digits number) (digits number')
        (fun letter next => by simp [ends letter next])
        (fun letter next => by simp [ends' letter next]) (List.cons.inj same).2
      exact ⟨congrArg parameter (Number.digitText_injective numbers), rests⟩
    | value cell' => exact plain'.elim
  | value cell => exact plain.elim

/-- Can symbols be read one by one? -/
def Legible (symbols : List SqlSymbol) : Prop :=
  (∀ symbol ∈ symbols, symbol.Plain) ∧ symbols.IsChain Apart

/-- Is an expression over where a query goes on like this? -/
def Breaks (rest : List SqlSymbol) : Prop :=
  ∀ symbol ∈ rest.head?, symbol ∈ [char ' ', char ',', char ')']

theorem breaks_words {text : String} {rest : List SqlSymbol}
    (begins : text.toList.head?.any (· ∈ [' ', ',', ')']) = true) :
    Breaks (wordSymbols text ++ rest) := by
  rw [wordSymbols]
  cases letters : text.toList with
  | nil =>
    rw [letters] at begins
    cases begins
  | cons letter letters =>
    rw [letters] at begins
    rintro _ ⟨⟩
    simpa using begins

theorem legible_nil : Legible [] :=
  ⟨(fun _ member => nomatch member), .nil⟩

/-- Can a text stand among the words of a query? -/
def PlainText (text : String) : Prop :=
  ∀ letter ∈ text.toList, letter ∉ ['"', '?', '\n']

-- by the characters of the text, and not by all characters
instance (text : String) : Decidable (PlainText text) :=
  List.decidableBAll (· ∉ ['"', '?', '\n']) text.toList

theorem legible_words {text : String} (plain : PlainText text) {rest : List SqlSymbol}
    (legible : Legible rest) : Legible (wordSymbols text ++ rest) := by
  rw [wordSymbols]
  rw [PlainText] at plain
  generalize text.toList = letters at plain
  induction letters with
  | nil => exact legible
  | cons letter letters ih =>
    obtain ⟨plainMore, chain⟩ := ih fun letter member => plain letter (.tail _ member)
    exact ⟨List.forall_mem_cons.mpr ⟨plain letter (.head _), plainMore⟩,
      List.isChain_cons.mpr ⟨fun _ _ => trivial, chain⟩⟩

/-- Can symbols be read in front of what ends an expression? -/
def Readable (part : List SqlSymbol) : Prop :=
  ∀ ⦃rest⦄, Breaks rest → Legible rest → Legible (part ++ rest)

/-- Can a text stand behind an expression? -/
def Behind (text : String) : Prop :=
  PlainText text ∧ text.toList.head?.any (· ∈ [' ', ',', ')']) = true

instance (text : String) : Decidable (Behind text) :=
  inferInstanceAs (Decidable (_ ∧ _))

namespace Readable

variable {part more : List SqlSymbol} {text : String}

theorem nil : Readable [] :=
  fun _ _ legible => legible

theorem words (plain : PlainText text) : Readable (wordSymbols text) :=
  fun _ _ legible => legible_words plain legible

theorem wordsAppend (plain : PlainText text) (readable : Readable part) :
    Readable (wordSymbols text ++ part) := by
  intro rest breaks legible
  rw [List.append_assoc]
  exact legible_words plain (readable breaks legible)

/-- What is read may go on with words behind it. -/
theorem behind (readable : Readable part) (behind : Behind text) (others : Readable more) :
    Readable (part ++ (wordSymbols text ++ more)) :=
  fun rest breaks legible => by
    rw [List.append_assoc, List.append_assoc]
    exact readable (breaks_words behind.2) (legible_words behind.1 (others breaks legible))

theorem closed (readable : Readable part) (behind : Behind text) :
    Readable (part ++ wordSymbols text) := by
  simpa using readable.behind behind nil

/-- A name or a parameter can be read. -/
theorem single {symbol : SqlSymbol} (plain : symbol.Plain) : Readable [symbol] := by
  intro rest breaks legible
  refine ⟨List.forall_mem_cons.mpr ⟨plain, legible.1⟩,
    List.isChain_cons.mpr ⟨fun next isNext => ?_, legible.2⟩⟩
  have ends := breaks next isNext
  simp only [List.mem_cons, List.not_mem_nil, or_false] at ends
  cases symbol with
  | char letter | value cell => trivial
  | name quoted => rcases ends with rfl | rfl | rfl <;> trivial
  | parameter number => rcases ends with rfl | rfl | rfl <;> simp [Apart]

/-- Parts with words between them can be read if each of them can. -/
theorem intercalate (behind : Behind text) {parts : List (List SqlSymbol)}
    (each : ∀ part ∈ parts, Readable part) : Readable ((wordSymbols text).intercalate parts) := by
  induction parts with
  | nil => exact nil
  | cons first others ih =>
    cases others with
    | nil =>
      rw [List.intercalate_singleton]
      exact each first (.head _)
    | cons next others =>
      rw [List.intercalate_cons_cons, List.append_assoc]
      exact (each first (.head _)).behind behind
        (ih fun part member => each part (.tail _ member))

end Readable

end SqlSymbol

/-! ## Words -/

theorem char_injective : Function.Injective SqlSymbol.char :=
  fun _ _ same => (SqlSymbol.char.inj same)

theorem wordSymbols_inj {text text' : String} (same : wordSymbols text = wordSymbols text') :
    text = text' :=
  String.toList_inj.mp (List.map_injective_iff.mpr char_injective same)

/-- Does none of the texts begin with another one? -/
def PrefixFree (texts : List String) : Prop :=
  ∀ text ∈ texts, ∀ other ∈ texts, text.toList <+: other.toList → text = other

instance (texts : List String) : Decidable (PrefixFree texts) :=
  inferInstanceAs (Decidable (∀ text ∈ texts, ∀ other ∈ texts,
    text.toList <+: other.toList → text = other))

/-- Words that do not begin with one another are told apart, whatever stands behind them. -/
theorem PrefixFree.append_inj {texts : List String} (apart : PrefixFree texts)
    {text text' : String} (member : text ∈ texts) (member' : text' ∈ texts)
    {rest rest' : List SqlSymbol}
    (same : wordSymbols text ++ rest = wordSymbols text' ++ rest') :
    text = text' ∧ rest = rest' := by
  have equal : text = text' := by
    have front : wordSymbols text <+: wordSymbols text' ++ rest' := ⟨rest, same⟩
    rcases List.prefix_or_prefix_of_prefix front ⟨rest', rfl⟩ with begins | begins
    · exact apart text member text' member'
        ((List.prefix_map_iff_of_injective char_injective).mp begins)
    · exact (apart text' member' text member
        ((List.prefix_map_iff_of_injective char_injective).mp begins)).symm
  subst equal
  exact ⟨rfl, List.append_cancel_left same⟩

/-- Does neither of two texts begin with the other one? -/
def Unlike (text other : String) : Prop :=
  ¬ text.toList <+: other.toList ∧ ¬ other.toList <+: text.toList

instance (text other : String) : Decidable (Unlike text other) :=
  inferInstanceAs (Decidable (_ ∧ _))

theorem Unlike.not_prefix {text text' : String} (unlike : Unlike text text')
    {rest : List SqlSymbol} : ¬ wordSymbols text <+: wordSymbols text' ++ rest := by
  intro front
  rcases List.prefix_or_prefix_of_prefix front ⟨rest, rfl⟩ with begins | begins
  · exact unlike.1 ((List.prefix_map_iff_of_injective char_injective).mp begins)
  · exact unlike.2 ((List.prefix_map_iff_of_injective char_injective).mp begins)

theorem Unlike.ne {text text' : String} (unlike : Unlike text text') {rest rest' : List SqlSymbol} :
    wordSymbols text ++ rest ≠ wordSymbols text' ++ rest' :=
  fun same => unlike.not_prefix ⟨rest, same⟩

/-- Does a run of letters stop where a query goes on like this? -/
def Stops (stops : List Char) (rest : List SqlSymbol) : Prop :=
  ∀ letter, rest.head? = some (.char letter) → letter ∈ stops

/-- A word in front of what stops it is told from the symbols. -/
theorem word_append_inj {stops : List Char} {text text' : String} {rest rest' : List SqlSymbol}
    (word : ∀ letter ∈ text.toList, letter ∉ stops)
    (word' : ∀ letter ∈ text'.toList, letter ∉ stops) (ends : Stops stops rest)
    (ends' : Stops stops rest')
    (same : wordSymbols text ++ rest = wordSymbols text' ++ rest') :
    text = text' ∧ rest = rest' := by
  have run {text : String} (word : ∀ letter ∈ text.toList, letter ∉ stops) :
      ∀ symbol ∈ wordSymbols text, ∃ letter, symbol = .char letter ∧ letter ∉ stops := by
    intro symbol member
    obtain ⟨letter, isLetter, rfl⟩ := List.mem_map.mp member
    exact ⟨letter, rfl, word letter isLetter⟩
  have stop {rest : List SqlSymbol} (ends : Stops stops rest) :
      ∀ symbol ∈ rest.head?, ¬ ∃ letter, symbol = .char letter ∧ letter ∉ stops := by
    rintro _ first ⟨letter, rfl, inside⟩
    exact inside (ends letter first)
  obtain ⟨words, rests⟩ :=
    Reading.run_append_inj (run word) (run word') (stop ends) (stop ends') same
  exact ⟨wordSymbols_inj words, rests⟩

/-! ## Texts of compiled queries -/

theorem Sql.toList_text (sql : Sql) :
    (sql.text .sqlite).toList = sql.symbols.flatMap SqlSymbol.chars := by
  rw [text, String.toList_join, List.flatMap_map, symbols, List.flatMap_assoc]
  refine List.flatMap_congr fun piece _ => ?_
  cases piece with
  | words text =>
    rw [SqlPiece.symbols, wordSymbols, List.flatMap_map]
    exact List.flatMap_singleton' text.toList |>.symm
  | name quoted | parameter number | value cell => exact (List.append_nil _).symm

namespace CompiledQuery

/-- The lines behind a query that say the values of its parameters, counted from a number on. -/
def notes (cells : List Cell) (start : Nat) : List Char :=
  (cells.zipIdx start).flatMap fun (cell, index) =>
    "\n-- ".toList ++ Number.digitText (index + 1) ++ " = ".toList ++ cell.noted.toList

theorem toList_text {query : CompiledQuery} (sqlite : query.dialect = .sqlite) :
    query.text.toList = query.sql.symbols.flatMap SqlSymbol.chars ++ notes query.parameters 0 := by
  rw [text, String.toList_append, sqlite, Sql.toList_text, String.toList_join, List.flatMap_map,
    notes]
  congr 1
  refine List.flatMap_congr fun entry _ => ?_
  simp [toString, Number.digitText]

end CompiledQuery

end TablePipeline

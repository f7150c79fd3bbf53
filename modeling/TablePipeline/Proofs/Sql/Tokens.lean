import TablePipeline.Proofs.Sql.Symbols

/-! # Reading queries from texts

A text of either dialect is cut at its double quotes into names and the characters outside of them,
and a mark with digits behind it is a parameter. A query whose symbols can be told apart is read back
as these symbols.
-/

namespace TablePipeline

/-- The character that a parameter begins with. -/
def Dialect.mark : Dialect → Char
  | sqlite => '?'
  | postgres => '$'

namespace SqlSymbol

/-! ## Names -/

mutual

/-- Cuts a text into names between double quotes and the characters outside of them. -/
def cut : List Char → List SqlSymbol
  | [] => []
  | letter :: rest => if letter = '"' then cutName [] rest else char letter :: cut rest

/-- Cuts a text that goes on inside a name, behind some letters. The name ends at a quote that is not
written twice; one that is written twice stands for itself. -/
def cutName (letters : List Char) : List Char → List SqlSymbol
  | '"' :: '"' :: rest => cutName (letters ++ ['"']) rest
  | '"' :: rest => name (String.ofList letters) :: cut rest
  | letter :: rest => cutName (letters ++ [letter]) rest
  | [] => [name (String.ofList letters)]

end

theorem cutName_letter {letter : Char} (plain : letter ≠ '"') (letters rest : List Char) :
    cutName letters (letter :: rest) = cutName (letters ++ [letter]) rest := by
  rw [cutName]
  · exact fun _ isQuote => absurd isQuote plain
  · exact plain

theorem cutName_end (letters : List Char) {rest : List Char} (ends : rest.head? ≠ some '"') :
    cutName letters ('"' :: rest) = name (String.ofList letters) :: cut rest := by
  rw [cutName]
  rintro rest rfl
  exact ends rfl

/-- The quotes inside a name are written twice, so it is read up to the quote behind it. -/
theorem cutName_doubling (letters text : List Char) {rest : List Char}
    (ends : rest.head? ≠ some '"') :
    cutName letters (Text.doubling '"' text ++ '"' :: rest) =
      name (String.ofList (letters ++ text)) :: cut rest := by
  induction text generalizing letters with
  | nil => simpa [Text.doubling] using cutName_end letters ends
  | cons letter text ih =>
    have ih := ih (letters ++ [letter])
    rw [List.append_assoc, List.singleton_append] at ih
    rw [Text.doubling, List.flatMap_cons, ← Text.doubling]
    by_cases isQuote : letter = '"'
    · subst isQuote
      exact ih
    · rw [if_neg isQuote]
      exact (cutName_letter isQuote ..).trans ih

theorem cut_quote (quoted : String) {rest : List Char} (ends : rest.head? ≠ some '"') :
    cut ((Dialect.quote quoted).toList ++ rest) = name quoted :: cut rest := by
  rw [toList_quote, List.cons_append, List.append_assoc, List.singleton_append, cut, if_pos rfl,
    cutName_doubling [] quoted.toList ends, List.nil_append, String.ofList_toList]

theorem cut_letter {letter : Char} (plain : letter ≠ '"') (rest : List Char) :
    cut (letter :: rest) = char letter :: cut rest := by
  rw [cut, if_neg plain]

theorem cut_letters {letters : List Char} (plain : ∀ letter ∈ letters, letter ≠ '"')
    (rest : List Char) : cut (letters ++ rest) = letters.map char ++ cut rest := by
  induction letters with
  | nil => rfl
  | cons letter letters ih =>
    obtain ⟨first, others⟩ := List.forall_mem_cons.mp plain
    rw [List.cons_append, cut_letter first, ih others, List.map_cons, List.cons_append]

/-! ## Parameters -/

/-- The digit that a symbol is, if it is one. -/
def digit? : SqlSymbol → Option Char
  | char letter => if letter.isDigit then some letter else none
  | _ => none

/-- The symbols of a text that was cut into names and characters: a mark and all digits behind it are
a parameter. -/
def collect (mark : Char) : List SqlSymbol → List SqlSymbol
  | [] => []
  | symbol :: rest =>
    let others := collect mark rest
    let digits := others.takeWhile (·.digit?.isSome)
    if symbol = char mark ∧ digits ≠ [] then
      parameter (Number.ofDigits (digits.filterMap digit?)) ::
        others.dropWhile (·.digit?.isSome)
    else symbol :: others

/-- The symbols of a text. -/
def read (dialect : Dialect) (text : String) : List SqlSymbol :=
  collect dialect.mark (cut text.toList)

variable {dialect : Dialect} {symbol : SqlSymbol} {symbols : List SqlSymbol}

theorem collect_cons {mark : Char} (other : symbol ≠ char mark) (rest : List SqlSymbol) :
    collect mark (symbol :: rest) = symbol :: collect mark rest := by
  rw [collect, if_neg]
  exact fun isMark => other isMark.1

theorem collect_letters {mark : Char} {letters : List Char}
    (plain : ∀ letter ∈ letters, letter ≠ mark) (rest : List SqlSymbol) :
    collect mark (letters.map char ++ rest) = letters.map char ++ collect mark rest := by
  induction letters with
  | nil => rfl
  | cons letter letters ih =>
    obtain ⟨first, others⟩ := List.forall_mem_cons.mp plain
    have other : char letter ≠ char mark := fun same => first (char.inj same)
    rw [List.map_cons, List.cons_append, collect_cons other, ih others, List.cons_append]

/-- A parameter is read where no digit follows its number. -/
theorem collect_parameter {mark : Char} (noDigit : mark.isDigit = false) (number : Nat)
    {rest : List SqlSymbol} (ends : ∀ next ∈ (collect mark rest).head?, next.digit? = none) :
    collect mark (char mark :: ((Number.digitText number).map char ++ rest)) =
      parameter number :: collect mark rest := by
  have digits : ∀ letter ∈ Number.digitText number, letter.isDigit = true :=
    fun _ => Number.isDigit_of_mem_digitText
  have plain : ∀ letter ∈ Number.digitText number, letter ≠ mark := by
    rintro letter member rfl
    exact Bool.false_ne_true (noDigit.symm.trans (digits letter member))
  have areDigits : ∀ symbol ∈ (Number.digitText number).map char, symbol.digit?.isSome = true := by
    intro symbol member
    obtain ⟨letter, isLetter, rfl⟩ := List.mem_map.mp member
    rw [digit?, if_pos (digits letter isLetter), Option.isSome_some]
  have letters :
      ((Number.digitText number).map char).filterMap digit? = Number.digitText number := by
    rw [List.filterMap_map]
    exact (List.filterMap_congr fun letter member => if_pos (digits letter member)).trans
      List.filterMap_some
  obtain ⟨none, rest'⟩ : (collect mark rest).takeWhile (·.digit?.isSome) = [] ∧
      (collect mark rest).dropWhile (·.digit?.isSome) = collect mark rest := by
    generalize collect mark rest = others at ends
    cases others with
    | nil => exact ⟨rfl, rfl⟩
    | cons next others => simp [ends next rfl]
  have nonempty : (Number.digitText number).map char ≠ [] := by
    simpa using Number.digitText_ne_nil number
  simp only [collect, collect_letters plain, List.takeWhile_append_of_pos areDigits,
    List.dropWhile_append_of_pos areDigits, none, rest', List.append_nil, letters,
    Number.ofDigits_digitText, ne_eq, nonempty, not_false_eq_true, and_self, if_true]

/-! ## Queries -/

/-- The written form of a symbol in a dialect. -/
def written (dialect : Dialect) : SqlSymbol → List Char
  | char letter => [letter]
  | name quoted => (Dialect.quote quoted).toList
  | parameter number => (dialect.placeholder number).toList
  | value cell => cell.noted.toList

/-- What a symbol is cut into where it is written in a dialect. -/
def tokens (dialect : Dialect) : SqlSymbol → List SqlSymbol
  | parameter number => (dialect.placeholder number).toList.map char
  | symbol => [symbol]

theorem placeholder_eq (dialect : Dialect) (number : Nat) :
    (dialect.placeholder number).toList = dialect.mark :: Number.digitText number := by
  rw [Dialect.placeholder.eq_def, String.toList_append, Nat.toString_eq_repr, Nat.toList_repr]
  cases dialect <;> rfl

theorem mark_ne_quote (dialect : Dialect) : dialect.mark ≠ '"' := by
  cases dialect <;> decide

theorem isDigit_mark (dialect : Dialect) : dialect.mark.isDigit = false := by
  cases dialect <;> rfl

/-- No quote follows a name in a query that can be read. -/
theorem head?_written (legible : Legible (symbol :: symbols)) {quoted : String}
    (isName : symbol = name quoted) : (symbols.flatMap (written dialect)).head? ≠ some '"' := by
  cases symbols with
  | nil => exact nofun
  | cons next symbols =>
    have plain := legible.1 next (.tail _ (.head _))
    have apart := (List.isChain_cons.mp legible.2).1 next rfl
    subst isName
    rw [List.flatMap_cons]
    cases next with
    | char letter => exact fun isQuote => (plain_char.mp plain).1 (Option.some.inj isQuote)
    | name quoted' => exact apart.elim
    | parameter number =>
      rw [written, placeholder_eq]
      exact fun isQuote => mark_ne_quote dialect (Option.some.inj isQuote)
    | value cell => exact plain.elim

theorem Legible.tail (legible : Legible (symbol :: symbols)) : Legible symbols :=
  ⟨fun symbol member => legible.1 symbol (.tail _ member), (List.isChain_cons.mp legible.2).2⟩

/-- A query that can be read is cut into its names and the characters of its words and
parameters. -/
theorem cut_written (dialect : Dialect) (legible : Legible symbols) :
    cut (symbols.flatMap (written dialect)) = symbols.flatMap (tokens dialect) := by
  induction symbols with
  | nil => rfl
  | cons symbol symbols ih =>
    have others := ih legible.tail
    have plain := legible.1 symbol (.head _)
    rw [List.flatMap_cons, List.flatMap_cons]
    cases symbol with
    | char letter => exact (cut_letter (plain_char.mp plain).1 _).trans (congrArg _ others)
    | name quoted => exact (cut_quote quoted (head?_written legible rfl)).trans (congrArg _ others)
    | parameter number =>
      have noQuote : ∀ letter ∈ (dialect.placeholder number).toList, letter ≠ '"' := by
        rw [placeholder_eq]
        refine List.forall_mem_cons.mpr ⟨mark_ne_quote dialect, ?_⟩
        rintro _ member rfl
        cases Number.isDigit_of_mem_digitText member
      exact (cut_letters noQuote _).trans (congrArg _ others)
    | value cell => exact plain.elim

/-- The parameters of a query that can be read are found in what its text is cut into. -/
theorem collect_tokens (legible : Legible symbols) (unmarked : char dialect.mark ∉ symbols) :
    collect dialect.mark (symbols.flatMap (tokens dialect)) = symbols := by
  induction symbols with
  | nil => rfl
  | cons symbol symbols ih =>
    have others := ih legible.tail fun member => unmarked (.tail _ member)
    rw [List.flatMap_cons]
    cases symbol with
    | char letter =>
      have other : char letter ≠ char dialect.mark := fun same => unmarked (same ▸ .head _)
      exact (collect_cons other _).trans (congrArg _ others)
    | name quoted =>
      have other : name quoted ≠ char dialect.mark := nofun
      exact (collect_cons other _).trans (congrArg _ others)
    | parameter number =>
      have ends : ∀ next ∈ (collect dialect.mark (symbols.flatMap (tokens dialect))).head?,
          next.digit? = none := by
        rw [others]
        intro next isNext
        have apart := (List.isChain_cons.mp legible.2).1 next isNext
        cases next with
        | char letter => exact if_neg (by simp [show letter.isDigit = false from apart])
        | name | parameter | value => rfl
      rw [tokens, placeholder_eq, List.map_cons, List.cons_append,
        collect_parameter (isDigit_mark dialect) number ends, others]
    | value cell => exact (legible.1 _ (.head _)).elim

end SqlSymbol

namespace Sql

open SqlSymbol

theorem toList_written (dialect : Dialect) (sql : Sql) :
    (sql.text dialect).toList = sql.symbols.flatMap (written dialect) := by
  rw [text, String.toList_join, List.flatMap_map, symbols, List.flatMap_assoc]
  refine List.flatMap_congr fun piece _ => ?_
  cases piece with
  | words text =>
    rw [SqlPiece.symbols, wordSymbols, List.flatMap_map]
    exact List.flatMap_singleton' text.toList |>.symm
  | name quoted | parameter number | value cell => exact (List.append_nil _).symm

/-- A query is read from its text. -/
theorem read_text {sql : Sql} (legible : Legible sql.symbols) (unmarked : char '$' ∉ sql.symbols)
    (dialect : Dialect) : SqlSymbol.read dialect (sql.text dialect) = sql.symbols := by
  rw [SqlSymbol.read, toList_written, cut_written dialect legible, collect_tokens legible]
  cases dialect with
  | sqlite => exact fun member => (plain_char.mp (legible.1 _ member)).2.1 rfl
  | postgres => exact unmarked

end Sql

end TablePipeline

import TablePipeline.Proofs.Sql.TermReading

/-! # Relations are told from their symbols

A compiled query is a selection of items from a table, from a subquery or from a join of two
subqueries. Its parts are told from their symbols one after the other: the items by the commas
between them, and a subquery by the bracket that closes it.
-/

namespace TablePipeline

/-- An item of a selection. -/
inductive SqlItem where
  /-- What stands in place of no items. -/
  | blank
  /-- A column under its own name, or all of them. -/
  | plain (term : SqlTerm)
  | named (term : SqlTerm) (column : String)

/-- The items of a query. -/
@[ext]
structure SqlSelection where
  items : List SqlItem
  nonempty : items ≠ []

/-- What stands behind the subquery of a query. -/
inductive SqlTail where
  | all
  | filtered (condition : SqlTerm)
  | grouped (columns : List String)
  | ordered (reference : SqlReference)

/-- A query, or a subquery. -/
inductive SqlRelation where
  | table (selection : SqlSelection) (source : String)
  | query (selection : SqlSelection) (inner : SqlRelation) (label : Nat) (tail : SqlTail)
  | join (selection : SqlSelection) (left : SqlRelation) (leftLabel : Nat) (kind : JoinKind)
    (right : SqlRelation) (rightLabel : Nat) (pairs : List (SqlReference × SqlReference))

/-! ## The symbols of relations -/

/-- The symbols of an item. -/
def SqlItem.symbols : SqlItem → List SqlSymbol
  | blank => []
  | plain term => term.symbols
  | named term column => term.symbols ++ (wordSymbols " AS " ++ [.name column])

/-- The symbols of a selection. -/
def SqlSelection.symbols (selection : SqlSelection) : List SqlSymbol :=
  commaSymbols (selection.items.map SqlItem.symbols)

/-- The words behind the label of a subquery, and in front of what belongs to them. -/
def SqlTail.word : SqlTail → String
  | all => ""
  | filtered _ => " WHERE "
  | grouped _ => " GROUP BY "
  | ordered _ => " ORDER BY "

/-- What belongs to the words behind the label of a subquery. -/
def SqlTail.payload : SqlTail → List SqlSymbol
  | all => []
  | filtered condition => condition.symbols
  | grouped columns => commaSymbols (columns.map ([.name ·]))
  | ordered reference => reference.symbols

/-- The symbols of a pair of columns that are joined. -/
def pairSymbols (pair : SqlReference × SqlReference) : List SqlSymbol :=
  pair.1.symbols ++ (wordSymbols " = " ++ pair.2.symbols)

/-- The symbols of the condition of a join. -/
def conditionSymbols (pairs : List (SqlReference × SqlReference)) : List SqlSymbol :=
  (wordSymbols " AND ").intercalate (pairs.map pairSymbols)

/-- The symbols of a selection from somewhere. -/
def selectSymbols (selection : SqlSelection) (origin : List SqlSymbol) : List SqlSymbol :=
  wordSymbols "SELECT " ++ (selection.symbols ++ (wordSymbols " FROM " ++ origin))

/-- A subquery with its label, and the words behind it. -/
def labelled (inner : List SqlSymbol) (label : Nat) (word : String) (payload : List SqlSymbol) :
    List SqlSymbol :=
  inner ++ (wordSymbols ") AS " ++
    (wordSymbols ("t" ++ toString label) ++ (wordSymbols word ++ payload)))

namespace SqlRelation

/-- What a relation selects. -/
def selection : SqlRelation → SqlSelection
  | table selection _ | query selection _ _ _ | join selection _ _ _ _ _ _ => selection

/-- The symbols of what a relation selects from. -/
def origin : SqlRelation → List SqlSymbol
  | table _ source => [.name source]
  | query _ inner label tail =>
    wordSymbols "(" ++ labelled (selectSymbols inner.selection inner.origin) label tail.word
      tail.payload
  | join _ left leftLabel kind right rightLabel pairs =>
    wordSymbols "(" ++ labelled (selectSymbols left.selection left.origin) leftLabel
      (Sql.joinWords kind)
      (labelled (selectSymbols right.selection right.origin) rightLabel " ON "
        (conditionSymbols pairs))

/-- The symbols of a relation. -/
def symbols (relation : SqlRelation) : List SqlSymbol :=
  selectSymbols relation.selection relation.origin

end SqlRelation

/-! ## Items -/

variable {rest rest' : List SqlSymbol}

/-- Is an item over where a query goes on like this? -/
def EndsItem (rest : List SqlSymbol) : Prop :=
  ∃ words ∈ [", ", " FROM "], ∃ more, rest = wordSymbols words ++ more

theorem EndsItem.breaks (ends : EndsItem rest) : SqlSymbol.Breaks rest := by
  obtain ⟨words, listed, more, rfl⟩ := ends
  have begins : ∀ words ∈ [", ", " FROM "], SqlSymbol.Behind words := by decide
  exact SqlSymbol.breaks_words (begins words listed).2

/-- No name stands behind an item that is over. -/
theorem EndsItem.ne_named (ends : EndsItem rest) (more : List SqlSymbol) :
    rest ≠ wordSymbols " AS " ++ more := by
  obtain ⟨words, listed, behind, rfl⟩ := ends
  have unlike : ∀ words ∈ [", ", " FROM "], Unlike words " AS " := by decide
  exact (unlike words listed).ne

/-- An item is told from its symbols in front of what ends it. -/
theorem SqlItem.tells (item : SqlItem) :
    Reading.Tells (fun _ => True) symbols EndsItem item := by
  have naming {rest : List SqlSymbol} : SqlSymbol.Breaks (wordSymbols " AS " ++ rest) :=
    SqlSymbol.breaks_words (by decide)
  intro other _ rest rest' ends ends' same
  cases item with
  | blank =>
    cases other with
    | blank => exact ⟨rfl, same⟩
    | plain term' =>
      have same : rest = term'.symbols ++ rest' := same
      exact absurd (same ▸ ends.breaks) (term'.not_breaks _)
    | named term' column' =>
      have same : rest = (term'.symbols ++ (wordSymbols " AS " ++ [.name column'])) ++ rest' := same
      rw [List.append_assoc] at same
      exact absurd (same ▸ ends.breaks) (term'.not_breaks _)
  | plain term =>
    cases other with
    | blank =>
      have same : term.symbols ++ rest = rest' := same
      exact absurd (same ▸ ends'.breaks) (term.not_breaks _)
    | plain term' =>
      obtain ⟨rfl, rests⟩ := term.told trivial ends.breaks ends'.breaks same
      exact ⟨rfl, rests⟩
    | named term' column' =>
      simp only [symbols, List.append_assoc] at same
      obtain ⟨_, rests⟩ := term.told trivial ends.breaks naming same
      exact absurd rests (ends.ne_named _)
  | named term column =>
    cases other with
    | blank =>
      have same : (term.symbols ++ (wordSymbols " AS " ++ [.name column])) ++ rest = rest' := same
      rw [List.append_assoc] at same
      exact absurd (same ▸ ends'.breaks) (term.not_breaks _)
    | plain term' =>
      simp only [symbols, List.append_assoc] at same
      obtain ⟨_, rests⟩ := term.told trivial naming ends'.breaks same
      exact absurd rests.symm (ends'.ne_named _)
    | named term' column' =>
      simp only [symbols, List.append_assoc] at same
      obtain ⟨rfl, rests⟩ := term.told trivial naming naming same
      obtain ⟨columns, rests⟩ := List.cons.inj (List.append_cancel_left rests)
      exact ⟨by rw [SqlSymbol.name.inj columns], rests⟩

/-- A selection is told from its symbols. -/
theorem SqlSelection.symbols_append_inj {selection selection' : SqlSelection}
    (same : selection.symbols ++ (wordSymbols " FROM " ++ rest) =
      selection'.symbols ++ (wordSymbols " FROM " ++ rest')) :
    selection = selection' ∧ rest = rest' := by
  have ends {rest : List SqlSymbol} : EndsItem (wordSymbols " FROM " ++ rest) :=
    ⟨" FROM ", by decide, rest, rfl⟩
  have unlike : Unlike ", " " FROM " := by decide
  obtain ⟨items, rests⟩ := Reading.intercalate_append_inj (fun item _ => item.tells)
    (fun _ _ => trivial) selection.nonempty selection'.nonempty
    (fun rest => ⟨", ", by decide, rest, rfl⟩) ends ends unlike.not_prefix unlike.not_prefix same
  exact ⟨SqlSelection.ext items, List.append_cancel_left rests⟩

/-! ## Subqueries -/

/-- Is a relation over where a query goes on like this? -/
def EndsRelation (rest : List SqlSymbol) : Prop :=
  ∀ symbol ∈ rest.head?, symbol = .char ')'

/-- The words that stand behind the label of a subquery. -/
def tailWords : List String :=
  [" WHERE ", " GROUP BY ", " ORDER BY ", " INNER JOIN (", " LEFT JOIN (", " ON "]

theorem EndsRelation.breaks (ends : EndsRelation rest) : SqlSymbol.Breaks rest := by
  intro symbol first
  rw [ends symbol first]
  decide

/-- A relation that is over does not go on with the words behind a label. -/
theorem EndsRelation.ne_words {word : String} (ends : EndsRelation rest) (known : word ∈ tailWords)
    (more : List SqlSymbol) : rest ≠ wordSymbols word ++ more := by
  rintro rfl
  have blank : ∀ word ∈ tailWords, word.toList.head? = some ' ' := by decide
  obtain ⟨letters, text⟩ := List.head?_eq_some_iff.mp (blank word known)
  rw [wordSymbols, text] at ends
  exact absurd (ends (.char ' ') rfl) (by decide)

/-- Do words and what belongs to them stand behind the label of a subquery, or is the relation
over? -/
def FollowsLabel (word : String) (rest : List SqlSymbol) : Prop :=
  word ∈ tailWords ∨ word = "" ∧ EndsRelation rest

theorem FollowsLabel.breaks {word : String} (follows : FollowsLabel word rest) :
    SqlSymbol.Breaks (wordSymbols word ++ rest) := by
  rcases follows with known | ⟨rfl, ends⟩
  · have begins : ∀ word ∈ tailWords, SqlSymbol.Behind word := by decide
    exact SqlSymbol.breaks_words (begins word known).2
  · exact ends.breaks

/-- The words behind a label are told from what they begin. -/
theorem FollowsLabel.append_inj {word word' : String} (follows : FollowsLabel word rest)
    (follows' : FollowsLabel word' rest')
    (same : wordSymbols word ++ rest = wordSymbols word' ++ rest') :
    word = word' ∧ rest = rest' := by
  have apart : PrefixFree tailWords := by decide
  rcases follows with known | ⟨rfl, ends⟩
  · rcases follows' with known' | ⟨rfl, ends'⟩
    · exact apart.append_inj known known' same
    · exact absurd same.symm (ends'.ne_words known _)
  · rcases follows' with known' | ⟨rfl, ends'⟩
    · exact absurd same (ends.ne_words known' _)
    · exact ⟨rfl, same⟩

/-- The word of a label holds no character that stands for something else. -/
theorem bare_labelWord (label : Nat) : BareWord ("t" ++ toString label) := by
  intro letter member
  refine bare_label label letter ?_
  rw [String.toList_append]
  exact List.mem_append_left _ member

/-- A label is told from its word in front of what ends it. -/
theorem label_append_inj {label label' : Nat} (breaks : SqlSymbol.Breaks rest)
    (breaks' : SqlSymbol.Breaks rest')
    (same : wordSymbols ("t" ++ toString label) ++ rest =
      wordSymbols ("t" ++ toString label') ++ rest') : label = label' ∧ rest = rest' := by
  have word (label : Nat) : ∀ letter ∈ ("t" ++ toString label).toList, letter ∉ Reading.wordEnds :=
    fun letter member isEnd => bare_labelWord label letter member (.tail _ (.tail _ isEnd))
  obtain ⟨words, rests⟩ := word_append_inj (word label) (word label')
    (SqlTerm.endsLead_of_breaks breaks) (SqlTerm.endsLead_of_breaks breaks') same
  have lists := congrArg String.toList words
  simp only [String.toList_append, List.append_cancel_left_eq, Nat.toString_eq_repr,
    Nat.toList_repr] at lists
  exact ⟨Number.digitText_injective lists, rests⟩

namespace SqlTail

/-- The part of a query behind its subquery is told from its symbols. -/
theorem payload_append_inj {tail tail' : SqlTail} (words : tail.word = tail'.word)
    (ends : EndsRelation rest) (ends' : EndsRelation rest')
    (same : tail.payload ++ rest = tail'.payload ++ rest') : tail = tail' ∧ rest = rest' := by
  cases tail with
  | all =>
    cases tail' with
    | all => exact ⟨rfl, same⟩
    | filtered condition' | grouped columns' | ordered reference' => simp [word] at words
  | filtered condition =>
    cases tail' with
    | filtered condition' =>
      obtain ⟨rfl, rests⟩ := condition.told trivial ends.breaks ends'.breaks same
      exact ⟨rfl, rests⟩
    | all | grouped columns' | ordered reference' => simp [word] at words
  | grouped columns =>
    cases tail' with
    | grouped columns' =>
      have ended {rest : List SqlSymbol} (ends : EndsRelation rest) :
          ¬ wordSymbols ", " <+: rest := by
        rintro ⟨more, rfl⟩
        exact absurd (ends (.char ',') rfl) (by decide)
      obtain ⟨rfl, rests⟩ := names_append_inj ends.breaks ends'.breaks (ended ends) (ended ends')
        same
      exact ⟨rfl, rests⟩
    | all | filtered condition' | ordered reference' => simp [word] at words
  | ordered reference =>
    cases tail' with
    | ordered reference' =>
      obtain ⟨rfl, rests⟩ := SqlReference.symbols_append_inj same
      exact ⟨rfl, rests⟩
    | all | filtered condition' | grouped columns' => simp [word] at words

end SqlTail

/-- The condition of a join is told from its symbols. -/
theorem condition_append_inj {pairs pairs' : List (SqlReference × SqlReference)}
    (ends : EndsRelation rest) (ends' : EndsRelation rest')
    (same : conditionSymbols pairs ++ rest = conditionSymbols pairs' ++ rest') :
    pairs = pairs' ∧ rest = rest' := by
  have tells (pair : SqlReference × SqlReference) :
      Reading.Tells (fun _ => True) pairSymbols SqlSymbol.Breaks pair := by
    intro other _ rest rest' _ _ same
    simp only [pairSymbols, List.append_assoc] at same
    obtain ⟨lefts, behind⟩ := SqlReference.symbols_append_inj same
    obtain ⟨rights, rests⟩ := SqlReference.symbols_append_inj (List.append_cancel_left behind)
    exact ⟨Prod.ext lefts rights, rests⟩
  have begins (pair : SqlReference × SqlReference) (rest : List SqlSymbol) :
      ¬ SqlSymbol.Breaks (pairSymbols pair ++ rest) := by
    rw [pairSymbols, List.append_assoc]
    exact SqlTerm.not_breaks (.column pair.1) _
  have ended {rest : List SqlSymbol} (ends : EndsRelation rest) :
      ¬ wordSymbols " AND " <+: rest := by
    rintro ⟨more, rfl⟩
    exact absurd (ends (.char ' ') rfl) (by decide)
  exact Reading.tells_intercalate (fun pair _ => tells pair) (fun _ _ => trivial)
    (fun _ _ => trivial) (fun pair _ => begins pair) (fun _ => SqlSymbol.breaks_words (by decide))
    ends.breaks ends'.breaks (ended ends) (ended ends') same

namespace SqlRelation

/-- Is a relation told from its symbols? -/
abbrev Told (relation : SqlRelation) : Prop :=
  Reading.Tells (fun _ => True) symbols EndsRelation relation

variable {relation other inner inner' : SqlRelation}

/-- A subquery is told from its symbols, up to the bracket that closes it, and so are its label and
the words behind it. -/
theorem labelled_append_inj (told : inner.Told) {label label' : Nat} {word word' : String}
    {payload payload' : List SqlSymbol} (follows : FollowsLabel word (payload ++ rest))
    (follows' : FollowsLabel word' (payload' ++ rest'))
    (same : labelled inner.symbols label word payload ++ rest =
      labelled inner'.symbols label' word' payload' ++ rest') :
    inner = inner' ∧ label = label' ∧ word = word' ∧ payload ++ rest = payload' ++ rest' := by
  have closes {rest : List SqlSymbol} : EndsRelation (wordSymbols ") AS " ++ rest) := by
    rintro _ ⟨⟩
    rfl
  simp only [labelled, List.append_assoc] at same
  obtain ⟨inners, behind⟩ := told trivial closes closes same
  obtain ⟨labels, behind⟩ := label_append_inj follows.breaks follows'.breaks
    (List.append_cancel_left behind)
  obtain ⟨words, rests⟩ := follows.append_inj follows' behind
  exact ⟨inners, labels, words, rests⟩

/-- Relations with the same symbols select the same items from what has the same symbols. -/
theorem symbols_append_inj (same : relation.symbols ++ rest = other.symbols ++ rest') :
    relation.selection = other.selection ∧ relation.origin ++ rest = other.origin ++ rest' := by
  simp only [symbols, selectSymbols, List.append_assoc] at same
  exact SqlSelection.symbols_append_inj (List.append_cancel_left same)

theorem follows_tail (tail : SqlTail) (ends : EndsRelation rest) :
    FollowsLabel tail.word (tail.payload ++ rest) := by
  cases tail with
  | all => exact .inr ⟨rfl, ends⟩
  | filtered condition | grouped columns | ordered reference =>
    exact .inl (by simp [SqlTail.word, tailWords])

theorem follows_join (kind : JoinKind) (rest : List SqlSymbol) :
    FollowsLabel (Sql.joinWords kind) rest := by
  cases kind <;> exact .inl (by decide)

theorem follows_on (rest : List SqlSymbol) : FollowsLabel " ON " rest :=
  .inl (by decide)

theorem word_ne_joinWords (tail : SqlTail) (kind : JoinKind) : tail.word ≠ Sql.joinWords kind := by
  cases tail <;> cases kind <;> simp [SqlTail.word, Sql.joinWords]

/-- A table is not told like a subquery. -/
theorem name_ne_bracket {source : String} {more : List SqlSymbol} :
    [SqlSymbol.name source] ++ rest ≠ wordSymbols "(" ++ more := by
  intro same
  cases (List.cons.inj same).1

/-- Relations are told from their symbols. -/
theorem told (relation : SqlRelation) : relation.Told := by
  induction relation with
  | table selection source =>
    intro other _ rest rest' _ _ same
    obtain ⟨selections, origins⟩ := symbols_append_inj same
    cases other with
    | table selection' source' =>
      obtain ⟨sources, rests⟩ := List.cons.inj origins
      obtain rfl : selection = selection' := selections
      exact ⟨by rw [SqlSymbol.name.inj sources], rests⟩
    | query selection' inner' label' tail' =>
      rw [origin, origin, List.append_assoc] at origins
      exact absurd origins name_ne_bracket
    | join selection' left' leftLabel' kind' right' rightLabel' pairs' =>
      rw [origin, origin, List.append_assoc] at origins
      exact absurd origins name_ne_bracket
  | query selection inner label tail ih =>
    intro other _ rest rest' ends ends' same
    obtain ⟨selections, origins⟩ := symbols_append_inj same
    cases other with
    | table selection' source' =>
      rw [origin, origin, List.append_assoc] at origins
      exact absurd origins.symm name_ne_bracket
    | query selection' inner' label' tail' =>
      rw [origin, origin, List.append_assoc, List.append_assoc] at origins
      obtain ⟨rfl, rfl, words, behind⟩ := labelled_append_inj ih (follows_tail tail ends)
        (follows_tail tail' ends') (List.append_cancel_left origins)
      obtain ⟨rfl, rests⟩ := SqlTail.payload_append_inj words ends ends' behind
      obtain rfl : selection = selection' := selections
      exact ⟨rfl, rests⟩
    | join selection' left' leftLabel' kind' right' rightLabel' pairs' =>
      rw [origin, origin, List.append_assoc, List.append_assoc] at origins
      obtain ⟨_, _, words, _⟩ := labelled_append_inj ih (follows_tail tail ends)
        (follows_join kind' _) (List.append_cancel_left origins)
      exact absurd words (word_ne_joinWords tail kind')
  | join selection left leftLabel kind right rightLabel pairs ih ih' =>
    intro other _ rest rest' ends ends' same
    obtain ⟨selections, origins⟩ := symbols_append_inj same
    cases other with
    | table selection' source' =>
      rw [origin, origin, List.append_assoc] at origins
      exact absurd origins.symm name_ne_bracket
    | query selection' inner' label' tail' =>
      rw [origin, origin, List.append_assoc, List.append_assoc] at origins
      obtain ⟨_, _, words, _⟩ := labelled_append_inj ih (follows_join kind _)
        (follows_tail tail' ends') (List.append_cancel_left origins)
      exact absurd words.symm (word_ne_joinWords tail' kind)
    | join selection' left' leftLabel' kind' right' rightLabel' pairs' =>
      rw [origin, origin, List.append_assoc, List.append_assoc] at origins
      obtain ⟨rfl, rfl, words, behind⟩ := labelled_append_inj ih (follows_join kind _)
        (follows_join kind' _) (List.append_cancel_left origins)
      obtain ⟨rfl, rfl, _, behind⟩ := labelled_append_inj ih' (follows_on _) (follows_on _) behind
      obtain ⟨rfl, rests⟩ := condition_append_inj ends ends' behind
      obtain rfl : selection = selection' := selections
      obtain rfl : kind = kind' := by
        revert words
        cases kind <;> cases kind' <;> decide
      exact ⟨rfl, rests⟩

end SqlRelation

/-! ## Legibility -/

open SqlSymbol

theorem SqlItem.readable (item : SqlItem) : Readable item.symbols := by
  cases item with
  | blank => exact .nil
  | plain term => exact term.readable
  | named term column => exact term.readable.behind (by decide) (.single trivial)

theorem SqlSelection.readable (selection : SqlSelection) : Readable selection.symbols := by
  refine .intercalate (by decide) fun part member => ?_
  obtain ⟨item, _, rfl⟩ := List.mem_map.mp member
  exact item.readable

theorem SqlTail.readable (tail : SqlTail) : Readable (wordSymbols tail.word ++ tail.payload) := by
  cases tail with
  | all => exact .nil
  | filtered condition => exact .wordsAppend (by simp only [word]; decide) condition.readable
  | grouped columns => exact .wordsAppend (by simp only [word]; decide) (readable_names columns)
  | ordered reference => exact .wordsAppend (by simp only [word]; decide) reference.readable

theorem readable_condition (pairs : List (SqlReference × SqlReference)) :
    Readable (conditionSymbols pairs) := by
  refine .intercalate (by decide) fun part member => ?_
  obtain ⟨pair, _, rfl⟩ := List.mem_map.mp member
  exact pair.1.readable.behind (by decide) pair.2.readable

theorem readable_selectSymbols (selection : SqlSelection) {origin : List SqlSymbol}
    (readable : Readable origin) : Readable (selectSymbols selection origin) :=
  .wordsAppend (by decide) (selection.readable.behind (by decide) readable)

theorem readable_labelled {inner payload : List SqlSymbol} (label : Nat) {word : String}
    (readable : Readable inner) (behind : Readable (wordSymbols word ++ payload)) :
    Readable (labelled inner label word payload) :=
  readable.behind (by decide) (.wordsAppend (bare_labelWord label).plainText behind)

/-- A relation can be read in front of what ends it. -/
theorem SqlRelation.readable (relation : SqlRelation) : Readable relation.symbols := by
  have origin (relation : SqlRelation) : Readable relation.origin := by
    induction relation with
    | table selection source => exact .single trivial
    | query selection inner label tail ih =>
      exact .wordsAppend (by decide)
        (readable_labelled label (readable_selectSymbols inner.selection ih) tail.readable)
    | join selection left leftLabel kind right rightLabel pairs ih ih' =>
      have plain : PlainText (Sql.joinWords kind) := by cases kind <;> decide
      have condition : Readable (wordSymbols " ON " ++ conditionSymbols pairs) :=
        .wordsAppend (by decide) (readable_condition pairs)
      exact .wordsAppend (by decide)
        (readable_labelled leftLabel (readable_selectSymbols left.selection ih)
          (.wordsAppend plain
            (readable_labelled rightLabel (readable_selectSymbols right.selection ih') condition)))
  exact readable_selectSymbols relation.selection (origin relation)

theorem SqlRelation.legible (relation : SqlRelation) : Legible relation.symbols := by
  have breaks : Breaks [] := nofun
  rw [← List.append_nil relation.symbols]
  exact relation.readable breaks legible_nil

end TablePipeline

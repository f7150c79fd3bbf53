import TablePipeline.Proofs.Sql.Terms

/-! # Terms are told from their symbols

A term begins with a word, which may be empty, and goes on with a bracket, a name, a parameter or
what comes after the term. The word and the symbol behind it decide what kind of term it is, except
between the operators, which all begin with a bracket: those are told from the words behind the
bracket and behind the first operand.
-/

namespace TablePipeline

namespace SqlTerm

/-! ## Beginnings -/

variable {term other operand operand' : SqlTerm} {rest rest' : List SqlSymbol}

/-- What ends a word at the beginning of a term. -/
abbrev EndsLead (rest : List SqlSymbol) : Prop :=
  Stops Reading.wordEnds rest

theorem endsLead_of_breaks (breaks : SqlSymbol.Breaks rest) : EndsLead rest := by
  intro letter first
  have ends := breaks _ first
  simp only [List.mem_cons, SqlSymbol.char.injEq, List.not_mem_nil, or_false] at ends
  rcases ends with rfl | rfl | rfl <;> decide

theorem endsLead_opening (term : SqlTerm) (breaks : SqlSymbol.Breaks rest) :
    EndsLead (term.opening.toList ++ (term.inside ++ rest)) := by
  cases term with
  | column reference => rintro letter ⟨⟩
  | parameter number => rintro letter ⟨⟩
  | atom word => exact endsLead_of_breaks breaks
  | cast operand type | truth operand | binary op left right | unary op operand
  | call function arguments | rounded operand scale | windowed function arguments window =>
    rintro letter ⟨⟩
    decide

theorem bare_function (function : SqlFunction) : BareWord function.name := by
  cases function <;> decide

theorem bare_windowFunction (function : SqlWindowFunction) : BareWord function.name := by
  cases function <;> decide

theorem bare_lead (term : SqlTerm) : BareWord term.lead := by
  cases term with
  | column reference => exact reference.bare_prefix
  | atom word => exact word.bare
  | call function arguments => exact bare_function function
  | windowed function arguments window => exact bare_windowFunction function
  | cast operand type => exact (by decide : BareWord "CAST")
  | rounded operand scale => exact (by decide : BareWord "ROUND")
  | parameter number | truth operand | binary op left right | unary op operand =>
    exact fun _ member => nomatch member

theorem word_lead (term : SqlTerm) : ∀ letter ∈ term.lead.toList, letter ∉ Reading.wordEnds :=
  fun letter member isEnd => bare_lead term letter member (.tail _ (.tail _ isEnd))

theorem inside_of_atom (isAtom : term.opening = none) : term.inside = [] := by
  cases term with
  | atom word => rfl
  | column reference | parameter number | cast operand type | truth operand | binary op left right
  | unary op operand | call function arguments | rounded operand scale
  | windowed function arguments window => cases isAtom

/-- An opening is not what ends a term. -/
theorem not_breaks_opening {symbol : SqlSymbol} (opens : term.opening = some symbol)
    (rest : List SqlSymbol) : ¬ SqlSymbol.Breaks (symbol :: rest) := by
  intro breaks
  have ends := breaks symbol rfl
  cases term with
  | atom word => cases opens
  | column reference | parameter number | cast operand type | truth operand | binary op left right
  | unary op operand | call function arguments | rounded operand scale
  | windowed function arguments window =>
    cases opens
    simp at ends

/-- Two terms with the same symbols begin with the same word and go on in the same way. -/
theorem symbols_append_inj (breaks : SqlSymbol.Breaks rest) (breaks' : SqlSymbol.Breaks rest')
    (same : term.symbols ++ rest = other.symbols ++ rest') :
    term.lead = other.lead ∧ term.opening = other.opening ∧
      term.inside ++ rest = other.inside ++ rest' := by
  rw [symbols_eq, symbols_eq, List.append_assoc, List.append_assoc, List.append_assoc,
    List.append_assoc] at same
  obtain ⟨leads, behind⟩ := word_append_inj (word_lead term) (word_lead other)
    (endsLead_opening term breaks) (endsLead_opening other breaks') same
  refine ⟨leads, ?_⟩
  cases opens : term.opening with
  | none =>
    cases opens' : other.opening with
    | none =>
      rw [opens, opens'] at behind
      exact ⟨rfl, behind⟩
    | some symbol' =>
      rw [opens, opens', inside_of_atom opens] at behind
      have behind : rest = symbol' :: (other.inside ++ rest') := behind
      exact absurd (behind ▸ breaks) (not_breaks_opening opens' _)
  | some symbol =>
    cases opens' : other.opening with
    | none =>
      rw [opens, opens', inside_of_atom opens'] at behind
      have behind : symbol :: (term.inside ++ rest) = rest' := behind
      exact absurd (behind ▸ breaks') (not_breaks_opening opens _)
    | some symbol' =>
      rw [opens, opens'] at behind
      obtain ⟨rfl, insides⟩ := List.cons.inj behind
      exact ⟨rfl, insides⟩

/-- A term begins with a letter or with its opening. -/
theorem lead_of_atom (isAtom : term.opening = none) :
    ∃ word, term = atom word ∧ term.lead ≠ "" := by
  cases term with
  | atom word =>
    refine ⟨word, rfl, fun empty => ?_⟩
    have empty : word.text = "" := empty
    rcases word.begins with reserved | ⟨letter, letters, text, _⟩
    · exact absurd (empty ▸ reserved) (by decide)
    · rw [empty] at text
      cases text
  | column reference | parameter number | cast operand type | truth operand | binary op left right
  | unary op operand | call function arguments | rounded operand scale
  | windowed function arguments window => cases isAtom

/-- No term begins like what ends one. -/
theorem not_breaks (term : SqlTerm) (rest : List SqlSymbol) :
    ¬ SqlSymbol.Breaks (term.symbols ++ rest) := by
  intro breaks
  rw [symbols_eq, List.append_assoc, wordSymbols] at breaks
  have word := word_lead term
  cases letters : term.lead.toList with
  | cons letter letters' =>
    rw [letters] at breaks word
    exact word letter (.head _) (endsLead_of_breaks breaks letter rfl)
  | nil =>
    rw [letters] at breaks
    cases opens : term.opening with
    | none =>
      obtain ⟨_, _, nonempty⟩ := lead_of_atom opens
      exact nonempty (String.toList_inj.mp letters)
    | some symbol =>
      rw [opens] at breaks
      exact not_breaks_opening opens _ breaks

end SqlTerm

/-! ## Columns, orders and windows -/

variable {rest rest' : List SqlSymbol}

theorem SqlReference.prefix_injective {reference reference' : SqlReference}
    (same : reference.prefix_ = reference'.prefix_) : reference.label = reference'.label := by
  have label_ne (label : Nat) : "" ≠ "t" ++ toString label ++ "." := by
    intro empty
    have lists := congrArg String.toList empty
    simp at lists
  obtain ⟨label, column⟩ := reference
  obtain ⟨label', column'⟩ := reference'
  cases label with
  | none =>
    cases label' with
    | none => rfl
    | some label' => exact absurd same (label_ne label')
  | some label =>
    cases label' with
    | none => exact absurd same.symm (label_ne label)
    | some label' =>
      have lists := congrArg String.toList same
      simp only [prefix_, String.toList_append, List.append_assoc, List.append_cancel_left_eq,
        List.append_cancel_right_eq, Nat.toString_eq_repr, Nat.toList_repr] at lists
      exact congrArg some (Number.digitText_injective lists)

/-- A column is told from its symbols, whatever stands behind it. -/
theorem SqlReference.symbols_append_inj {reference reference' : SqlReference}
    (same : reference.symbols ++ rest = reference'.symbols ++ rest') :
    reference = reference' ∧ rest = rest' := by
  have word (reference : SqlReference) :
      ∀ letter ∈ reference.prefix_.toList, letter ∉ Reading.wordEnds :=
    SqlTerm.word_lead (.column reference)
  have stops (name : String) (rest : List SqlSymbol) :
      Stops Reading.wordEnds ([.name name] ++ rest) := by
    rintro letter ⟨⟩
  rw [symbols, symbols, List.append_assoc, List.append_assoc] at same
  obtain ⟨prefixes, names⟩ := word_append_inj (word reference) (word reference') (stops _ rest)
    (stops _ rest') same
  have labels := prefix_injective prefixes
  simp only [List.cons_append, List.nil_append, List.cons.injEq, SqlSymbol.name.injEq] at names
  obtain ⟨label, column⟩ := reference
  obtain ⟨label', column'⟩ := reference'
  obtain rfl : label = label' := labels
  obtain rfl : column = column' := names.1
  exact ⟨rfl, names.2⟩

/-- Is a part of an order over where a query goes on like this? -/
def EndsOrderTerm (rest : List SqlSymbol) : Prop :=
  ∀ symbol ∈ rest.head?, symbol ∈ [.char ',', .char ')']

theorem directions_prefixFree : PrefixFree directions := by
  decide

theorem OrderTerm.tells (term : OrderTerm) :
    Reading.Tells (fun _ => True) symbols EndsOrderTerm term := by
  -- a direction stands behind a key, and nothing behind a column alone
  have key_ne {key : OrderKey} {reference : SqlReference} {rest rest' : List SqlSymbol}
      (ends' : EndsOrderTerm rest') :
      (OrderTerm.key key).symbols ++ rest ≠ (OrderTerm.position reference).symbols ++ rest' := by
    intro same
    have same : (SqlReference.mk none key.column).symbols ++
        (wordSymbols " " ++ (wordSymbols key.directionText ++ rest)) =
          reference.symbols ++ rest' := by
      simpa [symbols, SqlReference.symbols, SqlReference.prefix_, wordSymbols] using same
    obtain ⟨_, rfl⟩ := SqlReference.symbols_append_inj same
    exact absurd (ends' (.char ' ') rfl) (by simp)
  intro other _ rest rest' ends ends' same
  cases term with
  | key key =>
    cases other with
    | key key' =>
      simp only [symbols, List.cons_append, List.append_assoc, List.cons.injEq,
        SqlSymbol.name.injEq] at same
      obtain ⟨columns, behind⟩ := same
      obtain ⟨texts, rests⟩ := directions_prefixFree.append_inj (directionText_mem key)
        (directionText_mem key') (List.append_cancel_left behind)
      refine ⟨congrArg OrderTerm.key ?_, rests⟩
      obtain ⟨column, descending, nulls⟩ := key
      obtain ⟨column', descending', nulls'⟩ := key'
      obtain rfl : column = column' := columns
      revert texts
      cases descending <;> cases descending' <;> cases nulls <;> cases nulls' <;>
        simp [OrderKey.directionText]
    | position reference' => exact absurd same (key_ne ends')
  | position reference =>
    cases other with
    | key key' => exact absurd same.symm (key_ne ends)
    | position reference' =>
      obtain ⟨rfl, rests⟩ := SqlReference.symbols_append_inj same
      exact ⟨rfl, rests⟩

theorem EndsOrderTerm.breaks (ends : EndsOrderTerm rest) : SqlSymbol.Breaks rest := by
  intro symbol first
  have := ends symbol first
  simp only [List.mem_cons, List.not_mem_nil, or_false] at this ⊢
  tauto

/-- No part of an order begins like what ends one. -/
theorem OrderTerm.not_ends (term : OrderTerm) (rest : List SqlSymbol) :
    ¬ EndsOrderTerm (term.symbols ++ rest) := by
  intro ends
  cases term with
  | key key => exact absurd (ends (.name key.column) rfl) (by simp)
  | position reference => exact SqlTerm.not_breaks (.column reference) rest ends.breaks

/-- Names are told from a list of them. -/
theorem tells_nameSymbol (name : String) :
    Reading.Tells (fun _ => True) (fun name => [SqlSymbol.name name]) SqlSymbol.Breaks name := by
  intro other _ rest rest' _ _ same
  obtain ⟨names, rests⟩ := List.cons.inj same
  exact ⟨SqlSymbol.name.inj names, rests⟩

/-- A list of names with commas between them is told from its symbols. -/
theorem names_append_inj {names names' : List String} (breaks : SqlSymbol.Breaks rest)
    (breaks' : SqlSymbol.Breaks rest') (ended : ¬ wordSymbols ", " <+: rest)
    (ended' : ¬ wordSymbols ", " <+: rest')
    (same : commaSymbols (names.map ([.name ·])) ++ rest =
      commaSymbols (names'.map ([.name ·])) ++ rest') : names = names' ∧ rest = rest' := by
  refine Reading.tells_intercalate (fun name _ => tells_nameSymbol name) (fun _ _ => trivial)
    (fun _ _ => trivial) (fun name _ rest breaks => ?_) (fun _ => ?_) breaks breaks' ended ended'
    same
  · exact absurd (breaks (.name name) rfl) (by simp)
  · exact SqlSymbol.breaks_words (by decide)

/-- The parts of an order are told from a list of them in front of a closing bracket. -/
theorem order_append_inj {order order' : List OrderTerm}
    (same : commaSymbols (order.map OrderTerm.symbols) ++ (wordSymbols ")" ++ rest) =
      commaSymbols (order'.map OrderTerm.symbols) ++ (wordSymbols ")" ++ rest')) :
    order = order' ∧ rest = rest' := by
  have unlike : Unlike ", " ")" := by decide
  have ends {rest : List SqlSymbol} : EndsOrderTerm (wordSymbols ")" ++ rest) := by
    rintro _ ⟨⟩
    decide
  obtain ⟨rfl, rests⟩ := Reading.tells_intercalate (fun term _ => term.tells) (fun _ _ => trivial)
    (fun _ _ => trivial) (fun term _ => term.not_ends) (fun _ => by rintro _ ⟨⟩; decide) ends ends
    unlike.not_prefix unlike.not_prefix same
  exact ⟨rfl, List.append_cancel_left rests⟩

/-- A window is told from its symbols in front of a closing bracket. -/
theorem SqlWindow.symbols_append_inj {window window' : SqlWindow}
    (same : window.symbols ++ (wordSymbols ")" ++ rest) =
      window'.symbols ++ (wordSymbols ")" ++ rest')) : window = window' ∧ rest = rest' := by
  have unlike : Unlike "PARTITION BY " "ORDER BY " := by decide
  have blank : Unlike ", " " " := by decide
  obtain ⟨partition, order⟩ := window
  obtain ⟨partition', order'⟩ := window'
  rw [symbols, symbols] at same
  have orders (same : wordSymbols "ORDER BY " ++ commaSymbols (order.map OrderTerm.symbols) ++
      (wordSymbols ")" ++ rest) = wordSymbols "ORDER BY " ++
        commaSymbols (order'.map OrderTerm.symbols) ++ (wordSymbols ")" ++ rest')) :
      order = order' ∧ rest = rest' := by
    rw [List.append_assoc, List.append_assoc] at same
    exact order_append_inj (List.append_cancel_left same)
  cases partition with
  | nil =>
    cases partition' with
    | nil =>
      obtain ⟨rfl, rests⟩ := orders same
      exact ⟨rfl, rests⟩
    | cons first' partition' =>
      simp only [List.isEmpty_nil, List.isEmpty_cons, Bool.false_eq_true, ↓reduceIte,
        List.append_assoc, List.nil_append] at same
      exact absurd same.symm unlike.ne
  | cons first partition =>
    cases partition' with
    | nil =>
      simp only [List.isEmpty_nil, List.isEmpty_cons, Bool.false_eq_true, ↓reduceIte,
        List.append_assoc, List.nil_append] at same
      exact absurd same unlike.ne
    | cons first' partition' =>
      simp only [List.isEmpty_cons, Bool.false_eq_true, ↓reduceIte, List.append_assoc] at same
      obtain ⟨names, behind⟩ := names_append_inj (SqlSymbol.breaks_words (by decide))
        (SqlSymbol.breaks_words (by decide)) blank.not_prefix blank.not_prefix
        (List.append_cancel_left same)
      obtain ⟨rfl, rests⟩ := orders (by simpa using behind)
      exact ⟨by rw [names], rests⟩

namespace SqlTerm

/-! ## Told terms -/

variable {term other operand operand' : SqlTerm}

/-- Is a term told from its symbols? -/
abbrev Told (term : SqlTerm) : Prop :=
  Reading.Tells (fun _ => True) symbols SqlSymbol.Breaks term

theorem told_column (reference : SqlReference) : (column reference).Told := by
  intro other _ rest rest' breaks breaks' same
  obtain ⟨_, opening, _⟩ := symbols_append_inj breaks breaks' same
  cases other with
  | column reference' =>
    obtain ⟨rfl, rests⟩ := SqlReference.symbols_append_inj same
    exact ⟨rfl, rests⟩
  | parameter number | atom word | cast operand type | truth operand | binary op left right
  | unary op operand | call function arguments | rounded operand scale
  | windowed function arguments window => cases opening

theorem told_parameter (number : Nat) : (parameter number).Told := by
  intro other _ rest rest' breaks breaks' same
  obtain ⟨_, opening, inside⟩ := symbols_append_inj breaks breaks' same
  cases other with
  | parameter number' =>
    cases opening
    exact ⟨rfl, inside⟩
  | column reference | atom word | cast operand type | truth operand | binary op left right
  | unary op operand | call function arguments | rounded operand scale
  | windowed function arguments window => cases opening

theorem told_atom (word : SqlWord) : (atom word).Told := by
  intro other _ rest rest' breaks breaks' same
  obtain ⟨lead, opening, inside⟩ := symbols_append_inj breaks breaks' same
  cases other with
  | atom word' => exact ⟨congrArg atom (SqlWord.ext lead), inside⟩
  | column reference | parameter number | cast operand type | truth operand | binary op left right
  | unary op operand | call function arguments | rounded operand scale
  | windowed function arguments window => cases opening

theorem function_name_injective : Function.Injective SqlFunction.name := by
  intro function function' same
  cases function <;> cases function' <;> first | rfl | exact absurd same (by decide)

theorem windowFunction_name_injective : Function.Injective SqlWindowFunction.name := by
  intro function function' same
  cases function <;> cases function' <;> first | rfl | exact absurd same (by decide)

theorem cast_of_lead (lead : other.lead = "CAST") (bracket : other.opening = some (.char '(')) :
    ∃ operand type, other = cast operand type := by
  cases other with
  | cast operand type => exact ⟨operand, type, rfl⟩
  | column reference | parameter number | atom word => cases bracket
  | truth operand | binary op left right | unary op operand | rounded operand scale =>
    simp [SqlTerm.lead] at lead
  | call function arguments => cases function <;> simp [SqlTerm.lead, SqlFunction.name] at lead
  | windowed function arguments window =>
    cases function <;> simp [SqlTerm.lead, SqlWindowFunction.name] at lead

theorem operator_of_lead (lead : other.lead = "") (bracket : other.opening = some (.char '(')) :
    (∃ operand, other = truth operand) ∨ (∃ op left right, other = binary op left right) ∨
      ∃ op operand, other = unary op operand := by
  cases other with
  | truth operand => exact .inl ⟨operand, rfl⟩
  | binary op left right => exact .inr (.inl ⟨op, left, right, rfl⟩)
  | unary op operand => exact .inr (.inr ⟨op, operand, rfl⟩)
  | column reference | parameter number | atom word => cases bracket
  | cast operand type | rounded operand scale => simp [SqlTerm.lead] at lead
  | call function arguments => cases function <;> simp [SqlTerm.lead, SqlFunction.name] at lead
  | windowed function arguments window =>
    cases function <;> simp [SqlTerm.lead, SqlWindowFunction.name] at lead

theorem call_of_lead {function : SqlFunction} (lead : other.lead = function.name)
    (bracket : other.opening = some (.char '(')) :
    (∃ arguments, other = call function arguments) ∨ ∃ operand scale, other = rounded operand scale
      := by
  cases other with
  | call function' arguments => exact .inl ⟨arguments, by rw [function_name_injective lead]⟩
  | rounded operand scale => exact .inr ⟨operand, scale, rfl⟩
  | column reference | parameter number | atom word => cases bracket
  | truth operand | binary op left right | unary op operand | cast operand type =>
    cases function <;> simp [SqlTerm.lead, SqlFunction.name] at lead
  | windowed function' arguments window =>
    cases function <;> cases function' <;>
      simp [SqlTerm.lead, SqlFunction.name, SqlWindowFunction.name] at lead

theorem windowed_of_lead {function : SqlWindowFunction} (lead : other.lead = function.name)
    (bracket : other.opening = some (.char '(')) :
    ∃ arguments window, other = windowed function arguments window := by
  cases other with
  | windowed function' arguments window =>
    exact ⟨arguments, window, by rw [windowFunction_name_injective lead]⟩
  | column reference | parameter number | atom word => cases bracket
  | truth operand | binary op left right | unary op operand | cast operand type
  | rounded operand scale => cases function <;> simp [SqlTerm.lead, SqlWindowFunction.name] at lead
  | call function' arguments =>
    cases function <;> cases function' <;>
      simp [SqlTerm.lead, SqlFunction.name, SqlWindowFunction.name] at lead

theorem storage_prefixFree : PrefixFree ["INTEGER", "REAL", "TEXT"] := by
  decide

theorem told_cast {type : Storage} (told : operand.Told) : (cast operand type).Told := by
  intro other _ rest rest' breaks breaks' same
  obtain ⟨lead, opening, inside⟩ := symbols_append_inj breaks breaks' same
  obtain ⟨operand', type', rfl⟩ := cast_of_lead lead.symm opening.symm
  simp only [SqlTerm.inside, List.append_assoc] at inside
  obtain ⟨rfl, behind⟩ := told trivial (SqlSymbol.breaks_words (by decide))
    (SqlSymbol.breaks_words (by decide)) inside
  have listed (type : Storage) : type.name ∈ ["INTEGER", "REAL", "TEXT"] := by
    cases type <;> decide
  obtain ⟨names, rests⟩ := storage_prefixFree.append_inj (listed type) (listed type')
    (List.append_cancel_left behind)
  have types : type = type' := by
    revert names
    cases type <;> cases type' <;> decide
  exact ⟨by rw [types], List.append_cancel_left rests⟩

/-! ### Operators -/

/-- What opens a bracket is no term. -/
theorem keyword_ne_symbols {keyword : String} (isKeyword : keyword ∈ ["CASE", "NOT"])
    (breaks : SqlSymbol.Breaks rest) (breaks' : SqlSymbol.Breaks rest') :
    wordSymbols keyword ++ rest ≠ term.symbols ++ rest' := by
  intro same
  have word : ∀ letter ∈ keyword.toList, letter ∉ Reading.wordEnds := by
    have bare : ∀ keyword ∈ ["CASE", "NOT"], BareWord keyword := by decide
    exact fun letter member isEnd => bare keyword isKeyword letter member (.tail _ (.tail _ isEnd))
  rw [symbols_eq, List.append_assoc, List.append_assoc] at same
  obtain ⟨lead, behind⟩ := word_append_inj word (word_lead term) (endsLead_of_breaks breaks)
    (endsLead_opening term breaks') same
  cases opens : term.opening with
  | none =>
    obtain ⟨atomic, rfl, _⟩ := lead_of_atom opens
    obtain rfl : keyword = atomic.text := lead
    rcases atomic.begins with reserved | ⟨letter, letters, text, isNumber⟩
    · have apart : ∀ keyword ∈ ["CASE", "NOT"], keyword ∉ ["NULL", "*", "inf", "NaN"] := by decide
      exact apart _ isKeyword reserved
    · have noNumbers : ∀ keyword ∈ ["CASE", "NOT"], keyword.toList.head?.all
          (fun letter => !letter.isDigit && letter != '-') = true := by decide
      have noNumber := noNumbers _ isKeyword
      rw [text] at noNumber
      rcases isNumber with digit | rfl
      · simp [digit] at noNumber
      · simp at noNumber
  | some symbol =>
    rw [opens] at behind
    exact not_breaks_opening opens _ (behind ▸ breaks)

/-- Only numbers begin with a minus. -/
theorem opening_of_minus {letters : List Char} (minus : term.lead.toList = '-' :: letters) :
    term.opening = none := by
  cases term with
  | atom word => rfl
  | column reference =>
    obtain ⟨label, column⟩ := reference
    cases label <;> simp [SqlTerm.lead, SqlReference.prefix_] at minus
  | parameter number | truth operand | binary op left right | unary op operand | cast operand type
  | rounded operand scale => simp [SqlTerm.lead] at minus
  | call function arguments => cases function <;> simp [SqlTerm.lead, SqlFunction.name] at minus
  | windowed function arguments window =>
    cases function <;> simp [SqlTerm.lead, SqlWindowFunction.name] at minus

/-- Where a bracket closes behind an operand, no blank stands behind its first word. -/
theorem closed_ne_blank {text : String} (word : ∀ letter ∈ text.toList, letter ∉ Reading.wordEnds) :
    operand.symbols ++ (wordSymbols ")" ++ rest) ≠ wordSymbols text ++ .char ' ' :: rest' := by
  intro same
  rw [symbols_eq, List.append_assoc, List.append_assoc] at same
  have blank : Stops Reading.wordEnds (.char ' ' :: rest') := by
    rintro _ ⟨⟩
    decide
  obtain ⟨_, behind⟩ := word_append_inj (word_lead operand) word
    (endsLead_opening operand (SqlSymbol.breaks_words (by decide))) blank same
  cases opens : operand.opening with
  | none =>
    rw [opens, inside_of_atom opens] at behind
    exact absurd (List.cons.inj behind).1 (by decide)
  | some symbol =>
    rw [opens] at behind
    refine not_breaks_opening opens (operand.inside ++ (wordSymbols ")" ++ rest)) ?_
    rintro _ ⟨⟩
    rw [(List.cons.inj behind).1]
    exact .head _

/-- A minus in front of an operand is not the first letter of a left operand. -/
theorem negate_ne_between :
    wordSymbols "-" ++ (operand.symbols ++ (wordSymbols ")" ++ rest)) ≠
      operand'.symbols ++ .char ' ' :: rest' := by
  intro same
  have first : wordSymbols operand'.lead = operand'.lead.toList.map .char := rfl
  have mark : wordSymbols "-" = [.char '-'] := by decide
  rw [symbols_eq operand', List.append_assoc, List.append_assoc, first, mark] at same
  cases letters : operand'.lead.toList with
  | nil =>
    rw [letters] at same
    cases opens : operand'.opening with
    | none =>
      obtain ⟨_, _, nonempty⟩ := lead_of_atom opens
      exact nonempty (String.toList_inj.mp letters)
    | some symbol =>
      rw [opens] at same
      have isMinus : symbol = .char '-' := (List.cons.inj same).1.symm
      cases operand' <;> cases opens <;> cases isMinus
  | cons letter letters' =>
    rw [letters] at same
    obtain ⟨isMinus, behind⟩ := List.cons.inj same
    obtain rfl := SqlSymbol.char.inj isMinus
    have opens := opening_of_minus letters
    rw [opens, inside_of_atom opens] at behind
    have word := word_lead operand'
    rw [letters] at word
    have text : wordSymbols (String.ofList letters') = letters'.map .char := by
      rw [wordSymbols, String.toList_ofList]
    have behind : operand.symbols ++ (wordSymbols ")" ++ rest) =
        wordSymbols (String.ofList letters') ++ .char ' ' :: rest' := by
      rw [text]
      exact behind
    refine closed_ne_blank (fun letter member => ?_) behind
    rw [String.toList_ofList] at member
    exact word letter (.tail _ member)

/-- How operators are written: the words behind the bracket, and those behind the first operand. -/
def operatorForms : List (String × String) :=
  [("CASE WHEN ", " THEN 1 WHEN NOT "), ("-", ")"), ("NOT ", ")"), ("", " IS NULL)"),
    ("", " IS NOT NULL)")] ++ BinaryOp.all.map fun op => ("", op.infix_)

theorem infix_mem_forms (op : BinaryOp) : ("", op.infix_) ∈ operatorForms :=
  List.mem_append_right _ (List.mem_map_of_mem (Expr.mem_operators op))

theorem infix_inj {op op' : BinaryOp} (same : op.infix_ = op'.infix_) : op = op' := by
  have apart : (BinaryOp.all.map BinaryOp.infix_).Nodup := by decide
  exact List.inj_on_of_nodup_map apart (Expr.mem_operators op) (Expr.mem_operators op') same

variable {form form' : String × String}

theorem breaks_form (isForm : form ∈ operatorForms) :
    SqlSymbol.Breaks (wordSymbols form.2 ++ rest) := by
  have begins : ∀ form ∈ operatorForms, form.2.toList.head?.any (· ∈ [' ', ',', ')']) = true := by
    decide
  exact SqlSymbol.breaks_words (begins form isForm)

/-- An operator that opens with words of its own is not one that opens with its first operand. -/
theorem opener_ne (isForm : form ∈ operatorForms) (isForm' : form' ∈ operatorForms)
    (opens : form.1 ≠ "") (first : form'.1 = "") :
    wordSymbols form.1 ++ (operand.symbols ++ (wordSymbols form.2 ++ rest)) ≠
      operand'.symbols ++ (wordSymbols form'.2 ++ rest') := by
  have blank : ∀ form ∈ operatorForms, form.1 = "" → form.2.toList.head? = some ' ' := by decide
  have openers : ∀ form ∈ operatorForms, form.1 ≠ "" → form = ("-", ")") ∨
      ∃ keyword ∈ ["CASE", "NOT"], ∃ more ∈ [" WHEN ", " "], form.1 = keyword ++ more := by decide
  rcases openers form isForm opens with rfl | ⟨keyword, isKeyword, more, isMore, opener⟩
  · obtain ⟨letters, begins⟩ := List.head?_eq_some_iff.mp (blank form' isForm' first)
    have tail : wordSymbols form'.2 = .char ' ' :: letters.map .char := by
      rw [wordSymbols, begins, List.map_cons]
    rw [tail]
    exact negate_ne_between
  · have breaks : ∀ more ∈ [" WHEN ", " "], more.toList.head?.any (· ∈ [' ', ',', ')']) = true := by
      decide
    rw [opener, wordSymbols_append, List.append_assoc]
    exact keyword_ne_symbols isKeyword (SqlSymbol.breaks_words (breaks more isMore))
      (breaks_form isForm')

/-- Operators are told from the words behind their brackets and behind their first operands. -/
theorem operator_append_inj (told : operand.Told) (isForm : form ∈ operatorForms)
    (isForm' : form' ∈ operatorForms)
    (same : wordSymbols form.1 ++ (operand.symbols ++ (wordSymbols form.2 ++ rest)) =
      wordSymbols form'.1 ++ (operand'.symbols ++ (wordSymbols form'.2 ++ rest'))) :
    form = form' ∧ operand = operand' ∧ rest = rest' := by
  have openers : PrefixFree ["CASE WHEN ", "-", "NOT "] := by decide
  have opener : ∀ form ∈ operatorForms, form.1 ≠ "" → form.1 ∈ ["CASE WHEN ", "-", "NOT "] := by
    decide
  have tails : PrefixFree (operatorForms.map (·.2)) := by decide
  have operands (same : operand.symbols ++ (wordSymbols form.2 ++ rest) =
      operand'.symbols ++ (wordSymbols form'.2 ++ rest')) :
      form.2 = form'.2 ∧ operand = operand' ∧ rest = rest' := by
    obtain ⟨equal, behind⟩ := told trivial (breaks_form isForm) (breaks_form isForm') same
    obtain ⟨words, rests⟩ := tails.append_inj (List.mem_map_of_mem isForm)
      (List.mem_map_of_mem isForm') behind
    exact ⟨words, equal, rests⟩
  by_cases first : form.1 = "" <;> by_cases first' : form'.1 = ""
  · rw [first, first'] at same
    obtain ⟨words, rests⟩ := operands same
    exact ⟨Prod.ext (first.trans first'.symm) words, rests⟩
  · rw [first] at same
    exact absurd same.symm (opener_ne isForm' isForm first' first)
  · rw [first'] at same
    exact absurd same (opener_ne isForm isForm' first first')
  · obtain ⟨words, behind⟩ := openers.append_inj (opener form isForm first)
      (opener form' isForm' first') same
    obtain ⟨tails, rests⟩ := operands behind
    exact ⟨Prod.ext words tails, rests⟩

/-- The form of an operator on one operand. -/
def unaryForm : UnaryOp → String × String
  | .negate => ("-", ")")
  | .not => ("NOT ", ")")
  | .isNull => ("", " IS NULL)")
  | .isNotNull => ("", " IS NOT NULL)")

theorem unaryForm_mem (op : UnaryOp) : unaryForm op ∈ operatorForms := by
  cases op <;> decide

theorem inside_unary (op : UnaryOp) (operand : SqlTerm) : (unary op operand).inside =
    wordSymbols (unaryForm op).1 ++ (operand.symbols ++ wordSymbols (unaryForm op).2) := by
  cases op <;> rfl

theorem truthForm_mem : ("CASE WHEN ", " THEN 1 WHEN NOT ") ∈ operatorForms := by
  decide

/-- An operator on two operands is written in a form of its own. -/
theorem infix_ne (op : BinaryOp) : ("CASE WHEN ", " THEN 1 WHEN NOT ") ≠ ("", op.infix_) ∧
    ∀ other, unaryForm other ≠ ("", op.infix_) := by
  have apart : ∀ op ∈ BinaryOp.all, ("CASE WHEN ", " THEN 1 WHEN NOT ") ≠ ("", op.infix_) ∧
      ∀ form ∈ [unaryForm .negate, unaryForm .not, unaryForm .isNull, unaryForm .isNotNull],
        form ≠ ("", op.infix_) := by decide
  obtain ⟨truth, unary⟩ := apart op (Expr.mem_operators op)
  exact ⟨truth, fun other => unary _ (by cases other <;> decide)⟩

theorem told_truth (told : operand.Told) : (truth operand).Told := by
  intro other _ rest rest' breaks breaks' same
  obtain ⟨lead, opening, inside⟩ := symbols_append_inj breaks breaks' same
  rcases operator_of_lead lead.symm opening.symm with
    ⟨operand', rfl⟩ | ⟨op', left', right', rfl⟩ | ⟨op', operand', rfl⟩
  · simp only [SqlTerm.inside, List.append_assoc] at inside
    obtain ⟨_, rfl, behind⟩ := operator_append_inj told truthForm_mem truthForm_mem inside
    exact ⟨rfl, by simpa using behind⟩
  · simp only [SqlTerm.inside, List.append_assoc] at inside
    obtain ⟨forms, _⟩ := operator_append_inj told truthForm_mem (infix_mem_forms op') inside
    exact absurd forms (infix_ne op').1
  · rw [inside_unary] at inside
    simp only [SqlTerm.inside, List.append_assoc] at inside
    obtain ⟨forms, _⟩ := operator_append_inj told truthForm_mem (unaryForm_mem op') inside
    exact absurd forms (by cases op' <;> decide)

theorem told_binary {op : BinaryOp} {left right : SqlTerm} (toldLeft : left.Told)
    (toldRight : right.Told) : (binary op left right).Told := by
  have isForm := infix_mem_forms op
  intro other _ rest rest' breaks breaks' same
  obtain ⟨lead, opening, inside⟩ := symbols_append_inj breaks breaks' same
  rcases operator_of_lead lead.symm opening.symm with
    ⟨operand', rfl⟩ | ⟨op', left', right', rfl⟩ | ⟨op', operand', rfl⟩
  · simp only [SqlTerm.inside, List.append_assoc] at inside
    obtain ⟨forms, _⟩ := operator_append_inj toldLeft isForm truthForm_mem inside
    exact absurd forms.symm (infix_ne op).1
  · simp only [SqlTerm.inside, List.append_assoc] at inside
    obtain ⟨forms, rfl, behind⟩ := operator_append_inj toldLeft isForm (infix_mem_forms op') inside
    obtain rfl := infix_inj (congrArg Prod.snd forms)
    have breaksClosing {rest : List SqlSymbol} :
        SqlSymbol.Breaks (wordSymbols op.closing ++ rest) := by
      have begins : ∀ op ∈ BinaryOp.all, op.closing.toList.head?.any (· ∈ [' ', ',', ')']) = true :=
        by decide
      exact SqlSymbol.breaks_words (begins op (Expr.mem_operators op))
    obtain ⟨rfl, rests⟩ := toldRight trivial breaksClosing breaksClosing behind
    exact ⟨rfl, List.append_cancel_left rests⟩
  · rw [inside_unary] at inside
    simp only [SqlTerm.inside, List.append_assoc] at inside
    obtain ⟨forms, _⟩ := operator_append_inj toldLeft isForm (unaryForm_mem op') inside
    exact absurd forms.symm ((infix_ne op).2 op')

theorem told_unary {op : UnaryOp} (told : operand.Told) : (unary op operand).Told := by
  intro other _ rest rest' breaks breaks' same
  obtain ⟨lead, opening, inside⟩ := symbols_append_inj breaks breaks' same
  rw [inside_unary] at inside
  rcases operator_of_lead lead.symm opening.symm with
    ⟨operand', rfl⟩ | ⟨op', left', right', rfl⟩ | ⟨op', operand', rfl⟩
  · simp only [SqlTerm.inside, List.append_assoc] at inside
    obtain ⟨forms, _⟩ := operator_append_inj told (unaryForm_mem op) truthForm_mem inside
    exact absurd forms (by cases op <;> decide)
  · simp only [SqlTerm.inside, List.append_assoc] at inside
    obtain ⟨forms, _⟩ := operator_append_inj told (unaryForm_mem op) (infix_mem_forms op') inside
    exact absurd forms ((infix_ne op').2 op)
  · rw [inside_unary] at inside
    simp only [List.append_assoc] at inside
    obtain ⟨forms, rfl, behind⟩ := operator_append_inj told (unaryForm_mem op) (unaryForm_mem op')
      inside
    have ops : op = op' := by
      revert forms
      cases op <;> cases op' <;> decide
    exact ⟨by rw [ops], behind⟩

/-! ### Functions -/

theorem breaks_separator : SqlSymbol.Breaks (wordSymbols ", " ++ rest) :=
  SqlSymbol.breaks_words (by decide)

/-- Arguments are told from the list of them, up to its closing bracket. -/
theorem arguments_append_inj {arguments arguments' : List SqlTerm}
    (told : ∀ argument ∈ arguments, argument.Told) {closing closing' : String}
    (closes : closing.toList.head? = some ')') (closes' : closing'.toList.head? = some ')')
    (same : commaSymbols (symbolsAll arguments) ++ (wordSymbols closing ++ rest) =
      commaSymbols (symbolsAll arguments') ++ (wordSymbols closing' ++ rest')) :
    arguments = arguments' ∧ wordSymbols closing ++ rest = wordSymbols closing' ++ rest' := by
  have breaks {closing : String} (closes : closing.toList.head? = some ')')
      {rest : List SqlSymbol} : SqlSymbol.Breaks (wordSymbols closing ++ rest) :=
    SqlSymbol.breaks_words (by rw [closes]; decide)
  have ended {closing : String} (closes : closing.toList.head? = some ')')
      {rest : List SqlSymbol} : ¬ wordSymbols ", " <+: wordSymbols closing ++ rest := by
    obtain ⟨letters, text⟩ := List.head?_eq_some_iff.mp closes
    rintro ⟨more, same⟩
    rw [wordSymbols, wordSymbols, text] at same
    exact absurd (SqlSymbol.char.inj (List.cons.inj same).1) (by decide)
  rw [symbolsAll_eq_map, symbolsAll_eq_map] at same
  exact Reading.tells_intercalate told (fun _ _ => trivial) (fun _ _ => trivial)
    (fun term _ => term.not_breaks) (fun _ => breaks_separator) (breaks closes) (breaks closes')
    (ended closes) (ended closes') same

/-- A list of arguments does not go on like a value that is divided by a scale. -/
theorem arguments_ne_scaled {arguments : List SqlTerm}
    (told : (∀ argument ∈ arguments, argument.Told) ∨ operand.Told) :
    commaSymbols (symbolsAll arguments) ++ (wordSymbols ")" ++ rest) ≠
      operand.symbols ++ (wordSymbols " / " ++ rest') := by
  intro same
  have closing {rest : List SqlSymbol} : SqlSymbol.Breaks (wordSymbols ")" ++ rest) :=
    SqlSymbol.breaks_words (by decide)
  have scale {rest : List SqlSymbol} : SqlSymbol.Breaks (wordSymbols " / " ++ rest) :=
    SqlSymbol.breaks_words (by decide)
  rw [symbolsAll_eq_map] at same
  cases arguments with
  | nil =>
    have same : wordSymbols ")" ++ rest = operand.symbols ++ (wordSymbols " / " ++ rest') := same
    exact not_breaks operand _ (same ▸ closing)
  | cons first others =>
    obtain ⟨after, shape, behind⟩ := Reading.intercalate_cons_append (wordSymbols ", ") symbols
      first others (wordSymbols ")" ++ rest)
    rw [commaSymbols, shape] at same
    have breaks : SqlSymbol.Breaks after := by
      rcases behind with ⟨_, rfl⟩ | ⟨_, rfl⟩
      · exact closing
      · exact breaks_separator
    have after_eq : after = wordSymbols " / " ++ rest' := by
      rcases told with told | told
      · exact (told first (.head _) trivial breaks scale same).2
      · exact (told trivial scale breaks same.symm).2.symm
    have unlike : Unlike ")" " / " ∧ Unlike ", " " / " := by decide
    rcases behind with ⟨_, rfl⟩ | ⟨_, rfl⟩
    · exact unlike.1.ne after_eq
    · exact unlike.2.ne after_eq

theorem told_call {function : SqlFunction} {arguments : List SqlTerm}
    (told : ∀ argument ∈ arguments, argument.Told) : (call function arguments).Told := by
  intro other _ rest rest' breaks breaks' same
  obtain ⟨lead, opening, inside⟩ := symbols_append_inj breaks breaks' same
  rcases call_of_lead lead.symm opening.symm with ⟨arguments', rfl⟩ | ⟨operand', scale', rfl⟩
  · simp only [SqlTerm.inside, List.append_assoc] at inside
    obtain ⟨rfl, behind⟩ := arguments_append_inj told (by decide) (by decide) inside
    exact ⟨rfl, List.append_cancel_left behind⟩
  · simp only [SqlTerm.inside, List.append_assoc] at inside
    exact absurd inside (arguments_ne_scaled (.inl told))

theorem told_rounded {scale : SqlWord} (told : operand.Told) : (rounded operand scale).Told := by
  intro other _ rest rest' breaks breaks' same
  obtain ⟨lead, opening, inside⟩ := symbols_append_inj breaks breaks' same
  have name : other.lead = SqlFunction.round.name := lead.symm
  rcases call_of_lead name opening.symm with ⟨arguments', rfl⟩ | ⟨operand', scale', rfl⟩
  · simp only [SqlTerm.inside, List.append_assoc] at inside
    exact absurd inside.symm (arguments_ne_scaled (.inr told))
  · simp only [SqlTerm.inside, List.append_assoc] at inside
    obtain ⟨rfl, behind⟩ := told trivial (SqlSymbol.breaks_words (by decide))
      (SqlSymbol.breaks_words (by decide)) inside
    have closing {rest : List SqlSymbol} :
        SqlSymbol.Breaks (wordSymbols ")" ++ rest) := SqlSymbol.breaks_words (by decide)
    obtain ⟨scales, rests⟩ := @told_atom scale (atom scale') trivial _ _ closing closing
      (List.append_cancel_left behind)
    obtain rfl := SqlTerm.atom.inj scales
    exact ⟨rfl, List.append_cancel_left rests⟩

theorem told_windowed {function : SqlWindowFunction} {arguments : List SqlTerm} {window : SqlWindow}
    (told : ∀ argument ∈ arguments, argument.Told) : (windowed function arguments window).Told := by
  intro other _ rest rest' breaks breaks' same
  obtain ⟨lead, opening, inside⟩ := symbols_append_inj breaks breaks' same
  obtain ⟨arguments', window', rfl⟩ := windowed_of_lead lead.symm opening.symm
  simp only [SqlTerm.inside, List.append_assoc] at inside
  obtain ⟨rfl, behind⟩ := arguments_append_inj told (by decide) (by decide) inside
  obtain ⟨rfl, rests⟩ := SqlWindow.symbols_append_inj (List.append_cancel_left behind)
  exact ⟨rfl, rests⟩

mutual

/-- Terms are told from their symbols. -/
theorem told : ∀ term : SqlTerm, term.Told
  | column reference => told_column reference
  | parameter number => told_parameter number
  | atom word => told_atom word
  | cast operand _ => told_cast (told operand)
  | truth operand => told_truth (told operand)
  | binary _ left right => told_binary (told left) (told right)
  | unary _ operand => told_unary (told operand)
  | call _ arguments => told_call (toldAll arguments)
  | rounded operand _ => told_rounded (told operand)
  | windowed _ arguments _ => told_windowed (toldAll arguments)

@[inherit_doc told]
theorem toldAll : ∀ terms : List SqlTerm, ∀ term ∈ terms, term.Told
  | [] => fun _ member => nomatch member
  | first :: rest => List.forall_mem_cons.mpr ⟨told first, toldAll rest⟩

end

end SqlTerm

end TablePipeline

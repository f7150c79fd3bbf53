import TablePipeline.Proofs.Expr.Literals

/-! # Expressions are told from their texts

The text of an expression says which expression it is and where it ends, if the columns in it have
plain names. It begins with a word, which may be empty, and goes on with a bracket, with a quote or
with what comes after the expression. The word and the character behind it decide what kind of
expression it is, except between the operators, which all begin with a bracket.
-/

namespace TablePipeline

open Reading

namespace Expr

/-- Do all columns in an expression have plain names? -/
def Plain (expr : Expr String) : Prop :=
  ∀ name ∈ expr.references, PlainName name

/-- What the text of an expression goes on with, behind its first word. -/
inductive Opening where
  | nothing
  | quote
  | bracket
deriving DecidableEq

/-- The characters of an opening. -/
def Opening.chars : Opening → List Char
  | nothing => []
  | quote => ['\'']
  | bracket => ['(']

/-- The first word of the text of an expression. -/
def lead : Expr String → List Char
  | column name => name.toList
  | literal (.text _) => []
  | literal value => (literalText value).toList
  | cast _ _ => "cast".toList
  | binary .. | unary .. => []
  | call function _ => function.name.toList

@[inherit_doc Opening]
def opening : Expr String → Opening
  | column _ => .nothing
  | literal (.text _) => .quote
  | literal _ => .nothing
  | cast .. | binary .. | unary .. | call .. => .bracket

/-- A text with the quotes in it written twice. -/
def doubled (value : List Char) : List Char :=
  value.flatMap fun char => if char = '\'' then ['\'', '\''] else [char]

/-- The texts of arguments, with commas between them. -/
abbrev listText (arguments : List (Expr String)) : List Char :=
  commaList (fun argument => argument.text.toList) arguments

/-- The text of an expression behind its opening. -/
def inside : Expr String → List Char
  | literal (.text value) => doubled value.toList ++ ['\'']
  | column _ | literal _ => []
  | cast operand type =>
    operand.text.toList ++ ' ' :: ("as".toList ++ ' ' :: (type.name.toList ++ [')']))
  | binary op left right =>
    left.text.toList ++ ' ' :: (op.symbol.toList ++ ' ' :: (right.text.toList ++ [')']))
  | unary .negate operand => '-' :: (operand.text.toList ++ [')'])
  | unary .not operand => "NOT ".toList ++ operand.text.toList ++ [')']
  | unary .isNull operand => operand.text.toList ++ ' ' :: ("IS".toList ++ ' ' :: "NULL)".toList)
  | unary .isNotNull operand =>
    operand.text.toList ++ ' ' :: ("IS".toList ++ ' ' :: "NOT NULL)".toList)
  | call (.round digits) arguments =>
    listText arguments ++ ([',', ' '] ++ ((toString digits.toInt).toList ++ [')']))
  | call _ arguments => listText arguments ++ [')']

/-! What stands in front of an opening and behind it, for the kinds of expressions that have one. -/

section Parts

variable (operand left right : Expr String) (arguments : List (Expr String))

theorem lead_cast (type : CellType) : (cast operand type).lead = "cast".toList := rfl

theorem lead_binary (op : BinaryOp) : (binary op left right).lead = [] := rfl

theorem lead_unary (op : UnaryOp) : (unary op operand).lead = [] := rfl

theorem lead_call (function : ScalarFunction) :
    (call function arguments).lead = function.name.toList := rfl

theorem lead_quoted (value : String) : (literal (.text value) : Expr String).lead = [] := rfl

theorem inside_quoted (value : String) :
    (literal (.text value)).inside = doubled value.toList ++ ['\''] := rfl

theorem inside_cast (type : CellType) : (cast operand type).inside =
    operand.text.toList ++ ' ' :: ("as".toList ++ ' ' :: (type.name.toList ++ [')'])) := rfl

theorem inside_binary (op : BinaryOp) : (binary op left right).inside =
    left.text.toList ++ ' ' :: (op.symbol.toList ++ ' ' :: (right.text.toList ++ [')'])) := rfl

theorem inside_negate :
    (unary .negate operand).inside = '-' :: (operand.text.toList ++ [')']) := rfl

theorem inside_not :
    (unary .not operand).inside = "NOT ".toList ++ operand.text.toList ++ [')'] := rfl

theorem inside_isNull : (unary .isNull operand).inside =
    operand.text.toList ++ ' ' :: ("IS".toList ++ ' ' :: "NULL)".toList) := rfl

theorem inside_isNotNull : (unary .isNotNull operand).inside =
    operand.text.toList ++ ' ' :: ("IS".toList ++ ' ' :: "NOT NULL)".toList) := rfl

theorem inside_round (digits : Int32) : (call (.round digits) arguments).inside =
    listText arguments ++ ([',', ' '] ++ ((toString digits.toInt).toList ++ [')'])) := rfl

/-- Only a rounding is written with more than its arguments. -/
theorem inside_call {function : ScalarFunction} (unrounded : ∀ digits, function ≠ .round digits) :
    (call function arguments).inside = listText arguments ++ [')'] := by
  cases function with
  | round digits => exact absurd rfl (unrounded digits)
  | abs | sqrt | pow | strip | coalesce => rfl

end Parts

theorem texts_eq_map (arguments : List (Expr String)) : texts arguments = arguments.map text := by
  induction arguments with
  | nil => rfl
  | cons argument rest ih => rw [texts, ih, List.map_cons]

theorem text_eq (expr : Expr String) :
    expr.text.toList = expr.lead ++ (expr.opening.chars ++ expr.inside) := by
  cases expr with
  | column name => exact (List.append_nil _).symm
  | literal value =>
    cases value with
    | text value =>
      simp [text, literalText, singleQuoted, lead_quoted, opening, Opening.chars, inside_quoted,
        doubled]
    | null | bool value | int value | float value => exact (List.append_nil _).symm
  | cast operand type =>
    simp [text, lead_cast, opening, Opening.chars, inside_cast, toString]
  | binary op left right =>
    simp [text, lead_binary, opening, Opening.chars, inside_binary, toString]
  | unary op operand =>
    cases op <;> simp [text, unaryText, lead_unary, opening, Opening.chars, inside_negate,
      inside_not, inside_isNull, inside_isNotNull, toString]
  | call function arguments =>
    have list : (", ".intercalate (texts arguments)).toList = listText arguments := by
      rw [String.toList_intercalate, texts_eq_map, List.map_map]
      rfl
    cases function <;> simp [text, callText, list, lead_call, opening, Opening.chars, inside_round,
      inside_call, ScalarFunction.name, toString]

variable {expr other operand operand' : Expr String} {rest rest' : List Char}

theorem literal_bare {value : Cell} (bare : value.Bare) :
    (literal value : Expr String).lead = (literalText value).toList ∧
      (literal value : Expr String).opening = .nothing ∧
      (literal value : Expr String).inside = [] := by
  cases value with
  | text value => exact absurd bare id
  | null | bool value | int value | float value => exact ⟨rfl, rfl, rfl⟩

theorem bare_of_opening {value : Cell}
    (nothing : (literal value : Expr String).opening = .nothing) :
    value.Bare := by
  cases value with
  | text value => cases nothing
  | null | bool value | int value | float value => trivial

theorem word_lead (plain : expr.Plain) : Word expr.lead := by
  cases expr with
  | column name => exact (plain name (List.mem_singleton.mpr rfl)).word
  | literal value =>
    cases value with
    | text value => exact (by decide : Word [])
    | null | bool value | int value | float value => exact Cell.Bare.word trivial
  | cast operand type => exact (by decide : Word "cast".toList)
  | binary op left right => exact (by decide : Word [])
  | unary op operand => exact (by decide : Word [])
  | call function arguments =>
    have names : ∀ name ∈ ["round", "abs", "sqrt", "pow", "strip", "coalesce"],
        Word name.toList := by decide
    exact names _ (by cases function <;> simp [ScalarFunction.name])

theorem lead_nonempty (plain : expr.Plain) (nothing : expr.opening = .nothing) :
    expr.lead ≠ [] := by
  cases expr with
  | column name =>
    intro empty
    exact (plain name (List.mem_singleton.mpr rfl)).nonempty (String.toList_eq_nil_iff.mp empty)
  | literal value =>
    have bare := bare_of_opening nothing
    rw [(literal_bare bare).1]
    exact bare.nonempty
  | cast operand type => cases nothing
  | binary op left right => cases nothing
  | unary op operand => cases nothing
  | call function arguments => cases nothing

theorem inside_of_nothing (nothing : expr.opening = .nothing) : expr.inside = [] := by
  cases expr with
  | column name => rfl
  | literal value => exact (literal_bare (bare_of_opening nothing)).2.2
  | cast operand type => cases nothing
  | binary op left right => cases nothing
  | unary op operand => cases nothing
  | call function arguments => cases nothing

theorem endsWord_opening (expr : Expr String) (ends : EndsWord rest) :
    EndsWord (expr.opening.chars ++ (expr.inside ++ rest)) := by
  cases opening : expr.opening with
  | nothing => rwa [inside_of_nothing opening]
  | quote => exact endsWord_cons (by decide) _
  | bracket => exact endsWord_cons (by decide) _

theorem not_endsExpr {opening : Opening} (opens : opening ≠ .nothing) (rest : List Char) :
    ¬ EndsExpr (opening.chars ++ rest) := by
  intro ends
  cases opening with
  | nothing => exact opens rfl
  | quote => exact absurd (ends '\'' rfl) (by decide)
  | bracket => exact absurd (ends '(' rfl) (by decide)

/-- No expression begins like what comes after one. -/
theorem text_begins (plain : expr.Plain) (rest : List Char) :
    ¬ EndsExpr (expr.text.toList ++ rest) := by
  intro ends
  rw [text_eq, List.append_assoc] at ends
  by_cases empty : expr.lead = []
  · rw [empty, List.nil_append, List.append_assoc] at ends
    exact not_endsExpr (fun nothing => lead_nonempty plain nothing empty) _ ends
  · exact not_endsWord (word_lead plain) empty _ ends.endsWord

/-- An opening is told from what ends an expression, and from another opening. -/
theorem Opening.chars_append_inj {opening opening' : Opening}
    (ends : opening = .nothing → EndsExpr rest) (ends' : opening' = .nothing → EndsExpr rest')
    (same : opening.chars ++ rest = opening'.chars ++ rest') :
    opening = opening' ∧ rest = rest' := by
  by_cases nothing : opening = .nothing
  · by_cases nothing' : opening' = .nothing
    · subst nothing nothing'
      exact ⟨rfl, same⟩
    · subst nothing
      exact absurd (same ▸ ends rfl) (not_endsExpr nothing' rest')
  · by_cases nothing' : opening' = .nothing
    · subst nothing'
      exact absurd (same ▸ ends' rfl) (not_endsExpr nothing rest)
    · cases opening <;> cases opening' <;> simp_all [chars]

/-- The first word and the opening are told from the text, and the text behind them is the same. -/
theorem text_append_inj (plain : expr.Plain) (plain' : other.Plain) (ends : EndsExpr rest)
    (ends' : EndsExpr rest')
    (same : expr.text.toList ++ rest = other.text.toList ++ rest') :
    expr.lead = other.lead ∧ expr.opening = other.opening ∧
      expr.inside ++ rest = other.inside ++ rest' := by
  rw [text_eq, text_eq, List.append_assoc, List.append_assoc, List.append_assoc,
    List.append_assoc] at same
  obtain ⟨leads, behind⟩ := word_append_inj (word_lead plain) (word_lead plain')
    (endsWord_opening expr ends.endsWord) (endsWord_opening other ends'.endsWord) same
  refine ⟨leads, Opening.chars_append_inj (fun nothing => ?_) (fun nothing => ?_) behind⟩
  · rwa [inside_of_nothing nothing]
  · rwa [inside_of_nothing nothing]

/-- Is an expression told from its text? -/
abbrev Told (expr : Expr String) : Prop :=
  Tells Plain (fun expr => expr.text.toList) EndsExpr expr

/-! ## Operators -/

theorem operator_of_opening (empty : other.lead = []) (bracket : other.opening = .bracket) :
    (∃ op left right, other = binary op left right) ∨ ∃ op operand, other = unary op operand := by
  cases other with
  | column name => cases bracket
  | literal value => cases value <;> cases bracket
  | cast operand type => exact absurd empty (by decide : "cast".toList ≠ [])
  | binary op left right => exact .inl ⟨op, left, right, rfl⟩
  | unary op operand => exact .inr ⟨op, operand, rfl⟩
  | call function arguments => cases function <;> simp [lead_call, ScalarFunction.name] at empty

/-- What goes on with neither a quote nor a bracket has no opening. -/
theorem Opening.eq_nothing {opening : Opening} {char : Char} (noQuote : char ≠ '\'')
    (noBracket : char ≠ '(') (same : opening.chars ++ rest = char :: rest') :
    opening = .nothing := by
  cases opening with
  | nothing => rfl
  | quote => exact absurd (List.cons.inj same).1.symm noQuote
  | bracket => exact absurd (List.cons.inj same).1.symm noBracket

/-- Where a bracket closes behind an operand, no blank stands behind its first word. -/
theorem closed_ne_blank (plain : operand.Plain) {word : List Char} (isWord : Word word) :
    operand.text.toList ++ ')' :: rest ≠ word ++ ' ' :: rest' := by
  intro same
  rw [text_eq, List.append_assoc, List.append_assoc] at same
  obtain ⟨_, behind⟩ := word_append_inj (word_lead plain) isWord
    (endsWord_opening operand (endsWord_cons (by decide) rest)) (endsWord_cons (by decide) rest')
    same
  have nothing := Opening.eq_nothing (by decide) (by decide) behind
  rw [nothing, inside_of_nothing nothing] at behind
  exact absurd (List.cons.inj behind).1 (by decide)

/-- Only numbers and names begin with a minus, and they have no opening. -/
theorem opening_of_minus {word : List Char} (minus : operand.lead = '-' :: word) :
    operand.opening = .nothing := by
  cases operand with
  | column name => rfl
  | literal value =>
    cases value with
    | text value => cases minus
    | null | bool value | int value | float value => rfl
  | cast operand type => exact absurd (List.cons.inj minus).1 (by decide)
  | binary op left right => cases minus
  | unary op operand => cases minus
  | call function arguments =>
    cases function <;> simp [lead_call, ScalarFunction.name] at minus

/-- A minus in front of an operand is not the first character of a left operand. -/
theorem negate_ne_between (plain : operand.Plain) (plain' : operand'.Plain) :
    '-' :: (operand.text.toList ++ ')' :: rest) ≠ operand'.text.toList ++ ' ' :: rest' := by
  intro same
  rw [text_eq operand', List.append_assoc, List.append_assoc] at same
  cases lead : operand'.lead with
  | nil =>
    rw [lead] at same
    have nothing := Opening.eq_nothing (by decide) (by decide) same.symm
    exact lead_nonempty plain' nothing lead
  | cons char word =>
    rw [lead, List.cons_append, List.cons.injEq] at same
    obtain ⟨rfl, same⟩ := same
    have isWord := word_lead plain'
    rw [lead] at isWord
    rw [opening_of_minus lead, inside_of_nothing (opening_of_minus lead)] at same
    exact closed_ne_blank plain (fun char member => isWord char (List.mem_cons_of_mem _ member))
      same

/-- A `NOT` in front of an operand is not a left operand. -/
theorem not_ne_between (plain : operand.Plain) (plain' : operand'.Plain) {word : List Char}
    (isWord : Word word) :
    "NOT".toList ++ ' ' :: (operand.text.toList ++ ')' :: rest) ≠
      operand'.text.toList ++ ' ' :: (word ++ ' ' :: rest') := by
  intro same
  rw [text_eq operand', List.append_assoc, List.append_assoc] at same
  obtain ⟨_, behind⟩ := word_append_inj (by decide) (word_lead plain')
    (endsWord_cons (by decide) _)
    (endsWord_opening operand' (endsWord_cons (by decide) _)) same
  have nothing := Opening.eq_nothing (by decide) (by decide) behind.symm
  rw [nothing, inside_of_nothing nothing] at behind
  exact closed_ne_blank plain isWord (List.cons.inj behind).2

theorem between_inj (told : operand.Told) (plain' : operand'.Plain) {word word' : List Char}
    (isWord : Word word) (isWord' : Word word')
    (same : operand.text.toList ++ ' ' :: (word ++ ' ' :: rest) =
      operand'.text.toList ++ ' ' :: (word' ++ ' ' :: rest')) :
    operand = operand' ∧ word = word' ∧ rest = rest' := by
  obtain ⟨operands, behind⟩ := told plain' (endsExpr_cons (by decide) _)
    (endsExpr_cons (by decide) _) same
  obtain ⟨words, behind⟩ := word_append_inj isWord isWord' (endsWord_cons (by decide) _)
    (endsWord_cons (by decide) _) (List.cons.inj behind).2
  exact ⟨operands, words, (List.cons.inj behind).2⟩

theorem mem_operators (op : BinaryOp) : op ∈ BinaryOp.all := by
  rcases op with op | op | op <;> cases op <;> decide

theorem word_symbol (op : BinaryOp) : Word op.symbol.toList :=
  (by decide : ∀ op ∈ BinaryOp.all, Word op.symbol.toList) op (mem_operators op)

theorem symbol_inj {op op' : BinaryOp} (same : op.symbol.toList = op'.symbol.toList) :
    op = op' := by
  have apart : (BinaryOp.all.map BinaryOp.symbol).Nodup := by decide
  exact List.inj_on_of_nodup_map apart (mem_operators op) (mem_operators op')
    (String.toList_inj.mp same)

theorem symbol_ne_is (op : BinaryOp) : op.symbol ≠ "IS" :=
  (by decide : ∀ op ∈ BinaryOp.all, op.symbol ≠ "IS") op (mem_operators op)

theorem told_binary {op : BinaryOp} {left right : Expr String}
    (plain : (binary op left right).Plain)
    (toldLeft : left.Told) (toldRight : right.Told) : (binary op left right).Told := by
  have plainLeft : left.Plain := fun name member => plain name (List.mem_append_left _ member)
  intro other plain' rest rest' ends ends' same
  obtain ⟨lead, opening, inside⟩ := text_append_inj plain plain' ends ends' same
  rcases operator_of_opening lead.symm opening.symm with
    ⟨op', left', right', rfl⟩ | ⟨op', operand', rfl⟩
  · have plainLeft' : left'.Plain := fun name member => plain' name (List.mem_append_left _ member)
    have plainRight' : right'.Plain := fun name member =>
      plain' name (List.mem_append_right _ member)
    simp only [inside_binary, List.append_assoc, List.cons_append] at inside
    obtain ⟨rfl, symbols, inside⟩ :=
      between_inj toldLeft plainLeft' (word_symbol op) (word_symbol op') inside
    obtain ⟨rfl, rests⟩ := toldRight plainRight' (endsExpr_cons (by decide) _)
      (endsExpr_cons (by decide) _) inside
    exact ⟨by rw [symbol_inj symbols], (List.cons.inj rests).2⟩
  -- an operator with one operand stands before it, or is read as the symbol `IS`
  · have plainOperand' : operand'.Plain := plain'
    exfalso
    cases op' with
    | negate =>
      simp only [inside_binary, inside_negate, List.append_assoc, List.cons_append] at inside
      exact negate_ne_between plainOperand' plainLeft inside.symm
    | not =>
      simp only [inside_binary, inside_not, List.append_assoc, List.cons_append] at inside
      exact not_ne_between plainOperand' plainLeft (word_symbol op) inside.symm
    | isNull =>
      simp only [inside_binary, inside_isNull, List.append_assoc, List.cons_append] at inside
      obtain ⟨_, symbols, _⟩ :=
        between_inj toldLeft plainOperand' (word_symbol op) (by decide) inside
      exact symbol_ne_is op (String.toList_inj.mp symbols)
    | isNotNull =>
      simp only [inside_binary, inside_isNotNull, List.append_assoc, List.cons_append] at inside
      obtain ⟨_, symbols, _⟩ :=
        between_inj toldLeft plainOperand' (word_symbol op) (by decide) inside
      exact symbol_ne_is op (String.toList_inj.mp symbols)

theorem told_unary {op : UnaryOp} (plain : (unary op operand).Plain) (told : operand.Told) :
    (unary op operand).Told := by
  have plainOperand : operand.Plain := plain
  intro other plain' rest rest' ends ends' same
  obtain ⟨lead, opening, inside⟩ := text_append_inj plain plain' ends ends' same
  rcases operator_of_opening lead.symm opening.symm with
    ⟨op', left', right', rfl⟩ | ⟨op', operand', rfl⟩
  · have plainLeft' : left'.Plain := fun name member => plain' name (List.mem_append_left _ member)
    exfalso
    cases op <;> simp only [inside_binary, inside_negate, inside_not, inside_isNull,
      inside_isNotNull, List.append_assoc, List.cons_append] at inside
    case negate => exact negate_ne_between plainOperand plainLeft' inside
    case not => exact not_ne_between plainOperand plainLeft' (word_symbol op') inside
    case isNull | isNotNull =>
      obtain ⟨_, symbols, _⟩ := between_inj told plainLeft' (by decide) (word_symbol op') inside
      exact symbol_ne_is op' (String.toList_inj.mp symbols.symm)
  · have plainOperand' : operand'.Plain := plain'
    cases op <;> cases op' <;> simp only [inside_negate, inside_not, inside_isNull,
      inside_isNotNull, List.append_assoc, List.cons_append] at inside
    case negate.negate =>
      obtain ⟨rfl, rests⟩ := told plainOperand' (endsExpr_cons (by decide) _)
        (endsExpr_cons (by decide) _) (List.cons.inj inside).2
      exact ⟨rfl, (List.cons.inj rests).2⟩
    case not.not =>
      obtain ⟨rfl, rests⟩ := told plainOperand' (endsExpr_cons (by decide) _)
        (endsExpr_cons (by decide) _) (List.append_cancel_left inside)
      exact ⟨rfl, (List.cons.inj rests).2⟩
    case isNull.isNull | isNotNull.isNotNull =>
      obtain ⟨rfl, _, rests⟩ := between_inj told plainOperand' (by decide) (by decide) inside
      exact ⟨rfl, List.append_cancel_left rests⟩
    case isNull.isNotNull | isNotNull.isNull =>
      obtain ⟨_, _, rests⟩ := between_inj told plainOperand' (by decide) (by decide) inside
      exact absurd rests (by simp)
    case negate.not | not.negate => exact absurd inside (by simp)
    case negate.isNull | negate.isNotNull =>
      exact absurd inside (negate_ne_between plainOperand plainOperand')
    case isNull.negate | isNotNull.negate =>
      exact absurd inside.symm (negate_ne_between plainOperand' plainOperand)
    case not.isNull | not.isNotNull =>
      exact absurd inside (not_ne_between plainOperand plainOperand' (by decide))
    case isNull.not | isNotNull.not =>
      exact absurd inside.symm (not_ne_between plainOperand' plainOperand (by decide))

/-! ## Columns and literals -/

theorem told_column {name : String} (plain : (column name).Plain) : (column name).Told := by
  intro other plain' rest rest' ends ends' same
  obtain ⟨lead, opening, inside⟩ := text_append_inj plain plain' ends ends' same
  cases other with
  | column name' => exact ⟨congrArg column (String.toList_inj.mp lead), inside⟩
  | literal value =>
    have bare := bare_of_opening opening.symm
    rw [(literal_bare bare).1] at lead
    have isPlain := plain name (List.mem_singleton.mpr rfl)
    exact absurd (String.toList_inj.mp lead.symm) (bare.ne_plain isPlain)
  | cast operand type => cases opening
  | binary op left right => cases opening
  | unary op operand => cases opening
  | call function arguments => cases opening

theorem told_bare {value : Cell} (bare : value.Bare) : (literal value).Told := by
  intro other plain' rest rest' ends ends' same
  have plain : (literal value).Plain := fun _ member => nomatch member
  obtain ⟨lead, opening, inside⟩ := text_append_inj plain plain' ends ends' same
  obtain ⟨text, nothing, empty⟩ := literal_bare bare
  rw [text] at lead
  rw [nothing] at opening
  rw [empty, inside_of_nothing opening.symm] at inside
  cases other with
  | column name' =>
    have isPlain := plain' name' (List.mem_singleton.mpr rfl)
    exact absurd (String.toList_inj.mp lead) (bare.ne_plain isPlain)
  | literal value' =>
    have bare' := bare_of_opening opening.symm
    rw [(literal_bare bare').1] at lead
    exact ⟨congrArg literal (bare.inj bare' (String.toList_inj.mp lead)), inside⟩
  | cast operand type => cases opening
  | binary op left right => cases opening
  | unary op operand => cases opening
  | call function arguments => cases opening

/-- A quoted text ends where a quote stands alone. -/
theorem doubled_append_inj {value value' : List Char} (ends : EndsExpr rest)
    (ends' : EndsExpr rest')
    (same : doubled value ++ '\'' :: rest = doubled value' ++ '\'' :: rest') :
    value = value' ∧ rest = rest' := by
  have alone {rest : List Char} (ends : EndsExpr rest) : rest.head? ≠ some '\'' := fun first =>
    absurd (ends '\'' first) (by decide)
  exact doubling_append_inj (alone ends) (alone ends') same

theorem told_quoted (value : String) : (literal (.text value)).Told := by
  intro other plain' rest rest' ends ends' same
  have plain : (literal (.text value)).Plain := fun _ member => nomatch member
  obtain ⟨lead, opening, inside⟩ := text_append_inj plain plain' ends ends' same
  cases other with
  | literal value' =>
    cases value' with
    | text value' =>
      simp only [inside_quoted, List.append_assoc, List.cons_append, List.nil_append] at inside
      obtain ⟨values, rests⟩ := doubled_append_inj ends ends' inside
      exact ⟨by rw [String.toList_inj.mp values], rests⟩
    | null | bool value' | int value' | float value' => cases opening
  | column name' => cases opening
  | cast operand type => cases opening
  | binary op left right => cases opening
  | unary op operand => cases opening
  | call function arguments => cases opening

theorem told_literal (value : Cell) : (literal value).Told := by
  cases value with
  | text value => exact told_quoted value
  | null | bool value | int value | float value => exact told_bare trivial

/-! ## Casts and calls -/

theorem told_cast {type : CellType} (plain : (cast operand type).Plain) (told : operand.Told) :
    (cast operand type).Told := by
  intro other plain' rest rest' ends ends' same
  obtain ⟨lead, opening, inside⟩ := text_append_inj plain plain' ends ends' same
  cases other with
  | cast operand' type' =>
    have plainOperand' : operand'.Plain := plain'
    have types : ∀ type ∈ CellType.all, Word type.name.toList := by decide
    simp only [inside_cast, List.append_assoc, List.cons_append, List.nil_append] at inside
    obtain ⟨rfl, _, rests⟩ := between_inj told plainOperand' (by decide) (by decide) inside
    obtain ⟨names, rests⟩ := word_append_inj (types type (by cases type <;> decide))
      (types type' (by cases type' <;> decide)) (endsWord_cons (by decide) _)
      (endsWord_cons (by decide) _) rests
    have sameType : type = type' := by
      cases type <;> cases type' <;> simp [CellType.name] at names ⊢
    exact ⟨by rw [sameType], (List.cons.inj rests).2⟩
  | column name' => cases opening
  | literal value' => cases value' <;> cases opening
  | binary op left right => exact absurd lead (by decide : "cast".toList ≠ [])
  | unary op operand => exact absurd lead (by decide : "cast".toList ≠ [])
  | call function arguments =>
    cases function <;> simp [lead_cast, lead_call, ScalarFunction.name] at lead

theorem plain_of_mem {arguments : List (Expr String)}
    (plain : ∀ name ∈ referencesAll arguments, PlainName name) {argument : Expr String}
    (member : argument ∈ arguments) : argument.Plain := by
  induction arguments with
  | nil => cases member
  | cons first arguments ih =>
    rcases List.mem_cons.mp member with rfl | member
    · exact fun name isName => plain name (List.mem_append_left _ isName)
    · exact ih (fun name isName => plain name (List.mem_append_right _ isName)) member

/-- Arguments are told apart from the list of them, up to its closing bracket. -/
theorem listText_append_inj {arguments arguments' : List (Expr String)}
    (told : ∀ argument ∈ arguments, argument.Told)
    (plain : ∀ argument ∈ arguments, argument.Plain)
    (plain' : ∀ argument ∈ arguments', argument.Plain)
    (same : listText arguments ++ ')' :: rest = listText arguments' ++ ')' :: rest') :
    arguments = arguments' ∧ rest = rest' := by
  obtain ⟨lists, rests⟩ := tells_commaList told plain (fun _ => text_begins) plain'
    (endsList_cons (by decide) _) (endsList_cons (by decide) _) same
  exact ⟨lists, (List.cons.inj rests).2⟩

theorem listText_concat {arguments : List (Expr String)} (nonempty : arguments ≠ [])
    (last : Expr String) :
    listText (arguments ++ [last]) = listText arguments ++ ([',', ' '] ++ last.text.toList) := by
  induction arguments with
  | nil => exact absurd rfl nonempty
  | cons first arguments ih =>
    cases arguments with
    | nil => simp [listText, commaList]
    | cons next arguments =>
      have shorter := ih (List.cons_ne_nil _ _)
      simp only [listText, commaList, List.cons_append, List.map_cons, List.intercalate_cons_cons,
        List.append_assoc] at shorter ⊢
      rw [shorter]

/-- The digits that a rounding keeps, as one more argument. -/
def digitsArgument (digits : Int32) : Expr String :=
  literal (.int digits.toInt64)

theorem text_digitsArgument (digits : Int32) :
    (digitsArgument digits).text = toString digits.toInt := by
  have number : (digitsArgument digits).text = toString digits.toInt64.toInt := rfl
  rw [number, Int32.toInt_toInt64]

theorem digitsArgument_inj {digits digits' : Int32}
    (same : digitsArgument digits = digitsArgument digits') : digits = digits' := by
  rw [digitsArgument, digitsArgument, literal.injEq, Cell.int.injEq] at same
  have numbers := congrArg Int64.toInt same
  rw [Int32.toInt_toInt64, Int32.toInt_toInt64] at numbers
  exact Int32.toInt_inj.mp numbers

theorem plain_digitsArgument (digits : Int32) : (digitsArgument digits).Plain := by
  intro name member
  rw [digitsArgument, references] at member
  cases member

theorem told_digitsArgument (digits : Int32) : (digitsArgument digits).Told :=
  told_literal (.int digits.toInt64)

/-- The digits behind the arguments of a rounding, as one more argument. -/
theorem listText_rounded (argument : Expr String) (arguments : List (Expr String)) (digits : Int32)
    (rest : List Char) :
    listText (argument :: arguments) ++
        ([',', ' '] ++ ((digitsArgument digits).text.toList ++ ')' :: rest)) =
      listText (argument :: arguments ++ [digitsArgument digits]) ++ ')' :: rest := by
  rw [listText_concat (List.cons_ne_nil _ _)]
  simp only [List.append_assoc]

theorem comma_ne_listText {argument : Expr String} (plain : argument.Plain)
    (arguments : List (Expr String)) :
    [',', ' '] ++ rest ≠ listText (argument :: arguments) ++ rest' := by
  intro same
  obtain ⟨more, begins⟩ := exists_intercalate_cons [',', ' '] argument.text.toList
    (arguments.map fun argument => argument.text.toList)
  rw [listText, commaList, List.map_cons, begins, List.append_assoc] at same
  have ends : EndsExpr ([',', ' '] ++ rest) := endsExpr_cons (by decide) _
  rw [same] at ends
  exact text_begins plain _ ends

/-- The arguments of a rounding and its digits are told from their list. -/
theorem rounded_append_inj {arguments arguments' : List (Expr String)} {digits digits' : Int32}
    (told : ∀ argument ∈ arguments, argument.Told)
    (plain : ∀ argument ∈ arguments, argument.Plain)
    (plain' : ∀ argument ∈ arguments', argument.Plain)
    (same : listText arguments ++
        ([',', ' '] ++ ((digitsArgument digits).text.toList ++ ')' :: rest)) =
      listText arguments' ++
        ([',', ' '] ++ ((digitsArgument digits').text.toList ++ ')' :: rest'))) :
    arguments = arguments' ∧ digits = digits' ∧ rest = rest' := by
  cases arguments with
  | nil =>
    cases arguments' with
    | nil =>
      obtain ⟨sameDigits, rests⟩ := told_digitsArgument digits (plain_digitsArgument digits')
        (endsExpr_cons (by decide) _) (endsExpr_cons (by decide) _) (List.append_cancel_left same)
      exact ⟨rfl, digitsArgument_inj sameDigits, (List.cons.inj rests).2⟩
    | cons argument' arguments' =>
      exact absurd same (comma_ne_listText (plain' _ (List.mem_cons_self ..)) arguments')
  | cons argument arguments =>
    cases arguments' with
    | nil =>
      exact absurd same.symm (comma_ne_listText (plain _ (List.mem_cons_self ..)) arguments)
    | cons argument' arguments' =>
      rw [listText_rounded, listText_rounded] at same
      have one (digits : Int32) := List.forall_mem_singleton.mpr (plain_digitsArgument digits)
      obtain ⟨lists, rests⟩ := listText_append_inj
        (List.forall_mem_append.mpr
          ⟨told, List.forall_mem_singleton.mpr (told_digitsArgument digits)⟩)
        (List.forall_mem_append.mpr ⟨plain, one digits⟩)
        (List.forall_mem_append.mpr ⟨plain', one digits'⟩) same
      obtain ⟨sameArguments, last⟩ := List.append_inj' lists (by simp)
      exact ⟨sameArguments, digitsArgument_inj (List.singleton_inj.mp last), rests⟩

/-- A function is told from its name, up to the digits that a rounding keeps. Beside the rounding,
functions are written with their arguments alone. -/
theorem function_of_name {function function' : ScalarFunction}
    (same : function.name = function'.name) :
    (∃ digits digits', function = .round digits ∧ function' = .round digits') ∨
      function = function' ∧
        ∀ arguments, (call function arguments).inside = listText arguments ++ [')'] := by
  cases function <;> cases function' <;> simp [ScalarFunction.name, inside_call] at same ⊢

theorem told_call {function : ScalarFunction} {arguments : List (Expr String)}
    (plain : (call function arguments).Plain) (told : ∀ argument ∈ arguments, argument.Told) :
    (call function arguments).Told := by
  intro other plain' rest rest' ends ends' same
  obtain ⟨lead, opening, inside⟩ := text_append_inj plain plain' ends ends' same
  have plainArguments : ∀ argument ∈ arguments, argument.Plain := fun _ => plain_of_mem plain
  cases other with
  | call function' arguments' =>
    have plainArguments' : ∀ argument ∈ arguments', argument.Plain := fun _ => plain_of_mem plain'
    rcases function_of_name (String.toList_inj.mp lead) with
      ⟨digits, digits', rfl, rfl⟩ | ⟨rfl, written⟩
    · simp only [inside_round, List.append_assoc, List.cons_append, List.nil_append,
        ← text_digitsArgument] at inside
      obtain ⟨rfl, rfl, rests⟩ := rounded_append_inj told plainArguments plainArguments' inside
      exact ⟨rfl, rests⟩
    · simp only [written, List.append_assoc, List.cons_append, List.nil_append] at inside
      obtain ⟨rfl, rests⟩ := listText_append_inj told plainArguments plainArguments' inside
      exact ⟨rfl, rests⟩
  | column name' => cases opening
  | literal value' => cases value' <;> cases opening
  | cast operand type =>
    cases function <;> simp [lead_cast, lead_call, ScalarFunction.name] at lead
  | binary op left right =>
    cases function <;> simp [lead_binary, lead_call, ScalarFunction.name] at lead
  | unary op operand =>
    cases function <;> simp [lead_unary, lead_call, ScalarFunction.name] at lead

mutual

/-- Expressions whose columns have plain names are told from their texts. -/
theorem told : ∀ {expr : Expr String}, expr.Plain → expr.Told
  | column _, plain => told_column plain
  | literal value, _ => told_literal value
  | cast operand _, plain => told_cast plain (@told operand plain)
  | binary _ left right, plain =>
    told_binary plain (@told left fun name member => plain name (List.mem_append_left _ member))
      (@told right fun name member => plain name (List.mem_append_right _ member))
  | unary _ operand, plain => told_unary plain (@told operand plain)
  | call _ arguments, plain => told_call plain (@toldAll arguments plain)

@[inherit_doc told]
theorem toldAll : ∀ {arguments : List (Expr String)},
    (∀ name ∈ referencesAll arguments, PlainName name) → ∀ argument ∈ arguments, argument.Told
  | [], _ => fun _ member => nomatch member
  | first :: rest, plain => List.forall_mem_cons.mpr
    ⟨@told first fun name member => plain name (List.mem_append_left _ member),
      @toldAll rest fun name member => plain name (List.mem_append_right _ member)⟩

end

end Expr

end TablePipeline

import Mathlib.Data.List.Infix
import TablePipeline.Text.Quoted

/-! # Reading a text from its front

A written chain is made of words with blanks, commas, brackets and quotes between them. Where two
texts go on with something that ends a word, they have the same word in front exactly if they are
the same, and likewise for lists of items that are told apart one by one.
-/

namespace TablePipeline

namespace Reading

/-- The characters that end a word. -/
def wordEnds : List Char :=
  [' ', ',', '(', ')', ']', '\'', '\n']

theorem not_mem_wordEnds_of_isDigit {char : Char} (digit : char.isDigit = true) :
    char ∉ wordEnds := by
  intro isEnd
  have noDigits : ∀ char ∈ wordEnds, char.isDigit = false := by simp [wordEnds]
  exact Bool.false_ne_true ((noDigits char isEnd).symm.trans digit)

/-- Is no character of a text one that ends a word? -/
def Word (text : List Char) : Prop :=
  ∀ char ∈ text, char ∉ wordEnds

-- by the characters of the text, and not by all characters
instance (text : List Char) : Decidable (Word text) :=
  List.decidableBAll (· ∉ wordEnds) text

/-- Is a word over where a text goes on like this? -/
def EndsWord (rest : List Char) : Prop :=
  ∀ char ∈ rest.head?, char ∈ wordEnds

/-- Is an expression over where a text goes on like this? An opening bracket or a quote would belong
to it. -/
def EndsExpr (rest : List Char) : Prop :=
  ∀ char ∈ rest.head?, char ∈ [' ', ',', ')', ']', '\n']

/-- Is a list with commas over where a text goes on like this? -/
def EndsList (rest : List Char) : Prop :=
  ∀ char ∈ rest.head?, char ∈ [' ', ')', ']', '\n']

theorem EndsExpr.endsWord {rest : List Char} (ends : EndsExpr rest) : EndsWord rest := by
  intro char first
  have := ends char first
  simp only [wordEnds, List.mem_cons, List.not_mem_nil, or_false] at this ⊢
  tauto

theorem EndsList.endsExpr {rest : List Char} (ends : EndsList rest) : EndsExpr rest := by
  intro char first
  have := ends char first
  simp only [List.mem_cons, List.not_mem_nil, or_false] at this ⊢
  tauto

theorem endsWord_cons {char : Char} (isEnd : char ∈ wordEnds) (rest : List Char) :
    EndsWord (char :: rest) := by
  rintro _ ⟨⟩
  exact isEnd

theorem endsExpr_cons {char : Char} (isEnd : char ∈ [' ', ',', ')', ']', '\n'])
    (rest : List Char) : EndsExpr (char :: rest) := by
  rintro _ ⟨⟩
  exact isEnd

theorem endsList_cons {char : Char} (isEnd : char ∈ [' ', ')', ']', '\n']) (rest : List Char) :
    EndsList (char :: rest) := by
  rintro _ ⟨⟩
  exact isEnd

section Runs

variable {σ : Type} {inside : σ → Prop} {run run' rest rest' : List σ}

/-- Two lists that begin with a run of some symbols and go on with another symbol have the same run
and the same rest. -/
theorem run_append_inj (isRun : ∀ symbol ∈ run, inside symbol)
    (isRun' : ∀ symbol ∈ run', inside symbol) (ends : ∀ symbol ∈ rest.head?, ¬ inside symbol)
    (ends' : ∀ symbol ∈ rest'.head?, ¬ inside symbol) (same : run ++ rest = run' ++ rest') :
    run = run' ∧ rest = rest' := by
  induction run generalizing run' with
  | nil =>
    cases run' with
    | nil => exact ⟨rfl, same⟩
    | cons symbol run' =>
      rw [List.nil_append, List.cons_append] at same
      exact absurd (isRun' symbol (List.mem_cons_self ..)) (ends symbol (same ▸ rfl))
  | cons symbol run ih =>
    cases run' with
    | nil =>
      rw [List.nil_append, List.cons_append] at same
      exact absurd (isRun symbol (List.mem_cons_self ..)) (ends' symbol (same ▸ rfl))
    | cons symbol' run' =>
      rw [List.cons_append, List.cons_append, List.cons.injEq] at same
      obtain ⟨rfl, same⟩ := same
      obtain ⟨rfl, rfl⟩ := ih (fun symbol member => isRun symbol (List.mem_cons_of_mem _ member))
        (fun symbol member => isRun' symbol (List.mem_cons_of_mem _ member)) same
      exact ⟨rfl, rfl⟩

end Runs

/-- Two texts that begin with a word have the same word and the same rest. -/
theorem word_append_inj {word word' rest rest' : List Char} (isWord : Word word)
    (isWord' : Word word') (ends : EndsWord rest) (ends' : EndsWord rest')
    (same : word ++ rest = word' ++ rest') : word = word' ∧ rest = rest' :=
  run_append_inj isWord isWord' (fun char first => not_not_intro (ends char first))
    (fun char first => not_not_intro (ends' char first)) same

/-- Nothing that begins with a word ends one. -/
theorem not_endsWord {word : List Char} (isWord : Word word) (nonempty : word ≠ [])
    (rest : List Char) : ¬ EndsWord (word ++ rest) := by
  intro ends
  cases word with
  | nil => exact nonempty rfl
  | cons char word => exact isWord char (List.mem_cons_self ..) (ends char rfl)

section Items

variable {α σ : Type}

/-- Can an item be told from its text, where the text goes on in a way that ends the item? -/
def Tells (admitted : α → Prop) (text : α → List σ) (ends : List σ → Prop) (item : α) : Prop :=
  ∀ ⦃other⦄, admitted other → ∀ ⦃rest rest'⦄, ends rest → ends rest' →
    text item ++ rest = text other ++ rest' → item = other ∧ rest = rest'

variable {admitted : α → Prop} {text : α → List σ} {ends : List σ → Prop}

/-- A list with separators begins with its first item. -/
theorem exists_intercalate_cons (separator first : List σ) (others : List (List σ)) :
    ∃ after, separator.intercalate (first :: others) = first ++ after := by
  cases others with
  | nil => exact ⟨[], by rw [List.intercalate_singleton, List.append_nil]⟩
  | cons next others =>
    exact ⟨_, by rw [List.intercalate_cons_cons, List.append_assoc]⟩

/-- Behind the first item stands the separator or, after the last one, the rest. -/
theorem intercalate_cons_append (separator : List σ) (text : α → List σ) (item : α)
    (items : List α) (rest : List σ) :
    ∃ after, separator.intercalate ((item :: items).map text) ++ rest = text item ++ after ∧
      (items = [] ∧ after = rest ∨ items ≠ [] ∧
        after = separator ++ (separator.intercalate (items.map text) ++ rest)) := by
  cases items with
  | nil => exact ⟨rest, by rw [List.map_singleton, List.intercalate_singleton], .inl ⟨rfl, rfl⟩⟩
  | cons next items =>
    refine ⟨_, ?_, .inr ⟨List.cons_ne_nil _ _, rfl⟩⟩
    rw [List.map_cons, List.map_cons, List.intercalate_cons_cons]
    simp only [List.append_assoc]

/-- Lists of some items are told apart if the items are one by one and the separator ends an
item. -/
theorem intercalate_append_inj {separator : List σ} {items others : List α}
    (each : ∀ item ∈ items, Tells admitted text ends item)
    (admits' : ∀ other ∈ others, admitted other) (nonempty : items ≠ []) (nonempty' : others ≠ [])
    (separates : ∀ rest, ends (separator ++ rest)) {rest rest' : List σ} (isEnd : ends rest)
    (isEnd' : ends rest') (ended : ¬ separator <+: rest) (ended' : ¬ separator <+: rest')
    (same : separator.intercalate (items.map text) ++ rest =
      separator.intercalate (others.map text) ++ rest') : items = others ∧ rest = rest' := by
  have endsAfter {items : List α} {after rest : List σ} (isEnd : ends rest)
      (behind : items = [] ∧ after = rest ∨ items ≠ [] ∧
        after = separator ++ (separator.intercalate (items.map text) ++ rest)) : ends after := by
    rcases behind with ⟨_, rfl⟩ | ⟨_, rfl⟩
    · exact isEnd
    · exact separates _
  induction items generalizing others with
  | nil => exact absurd rfl nonempty
  | cons item items ih =>
    obtain ⟨after, shape, behind⟩ := intercalate_cons_append separator text item items rest
    cases others with
    | nil => exact absurd rfl nonempty'
    | cons other others =>
      obtain ⟨after', shape', behind'⟩ := intercalate_cons_append separator text other others rest'
      rw [shape, shape'] at same
      obtain ⟨rfl, rfl⟩ := each item (.head _) (admits' other (.head _)) (endsAfter isEnd behind)
        (endsAfter isEnd' behind') same
      rcases behind with ⟨rfl, rfl⟩ | ⟨more, separated⟩
      · rcases behind' with ⟨rfl, rfl⟩ | ⟨_, separated'⟩
        · exact ⟨rfl, rfl⟩
        · exact absurd (separated' ▸ List.prefix_append _ _) ended
      · rcases behind' with ⟨rfl, rfl⟩ | ⟨more', separated'⟩
        · exact absurd (separated ▸ List.prefix_append _ _) ended'
        · obtain ⟨rfl, rfl⟩ := ih (fun item member => each item (.tail _ member))
            (fun other member => admits' other (.tail _ member)) more more'
            (List.append_cancel_left (separated.symm.trans separated'))
          exact ⟨rfl, rfl⟩

/-- Items are told apart if they are one by one, the separator ends an item, and no item begins like
what ends one. -/
theorem tells_intercalate {separator : List σ} {items others : List α}
    (each : ∀ item ∈ items, Tells admitted text ends item)
    (admits : ∀ item ∈ items, admitted item) (admits' : ∀ other ∈ others, admitted other)
    (begins : ∀ item, admitted item → ∀ rest, ¬ ends (text item ++ rest))
    (separates : ∀ rest, ends (separator ++ rest)) {rest rest' : List σ} (isEnd : ends rest)
    (isEnd' : ends rest') (ended : ¬ separator <+: rest) (ended' : ¬ separator <+: rest')
    (same : separator.intercalate (items.map text) ++ rest =
      separator.intercalate (others.map text) ++ rest') : items = others ∧ rest = rest' := by
  -- an empty list goes on like the end of an item, and any other list like an item
  have ne_end {items : List α} (admits : ∀ item ∈ items, admitted item) (nonempty : items ≠ [])
      {rest end_ : List σ} (isEnd : ends end_) :
      separator.intercalate (items.map text) ++ rest ≠ end_ := by
    rintro rfl
    obtain ⟨item, items, rfl⟩ := List.exists_cons_of_ne_nil nonempty
    obtain ⟨after, shape, _⟩ := intercalate_cons_append separator text item items rest
    exact begins item (admits item (.head _)) after (shape ▸ isEnd)
  by_cases nonempty : items = []
  · by_cases nonempty' : others = []
    · subst nonempty nonempty'
      exact ⟨rfl, same⟩
    · subst nonempty
      exact absurd same.symm (ne_end admits' nonempty' isEnd)
  · by_cases nonempty' : others = []
    · subst nonempty'
      exact absurd same (ne_end admits nonempty isEnd')
    · exact intercalate_append_inj each admits' nonempty nonempty' separates isEnd isEnd' ended
        ended' same

end Items

section Commas

variable {α : Type} {admitted : α → Prop} {text : α → List Char}

/-- The texts of items, with commas between them. -/
def commaList (text : α → List Char) (items : List α) : List Char :=
  [',', ' '].intercalate (items.map text)

theorem not_comma_of_endsList {rest : List Char} (ends : EndsList rest) :
    ¬ [',', ' '] <+: rest := by
  rintro ⟨more, rfl⟩
  exact absurd (ends ',' rfl) (by decide)

/-- Lists with commas are told apart if their items are. -/
theorem tells_commaList {items : List α} (each : ∀ item ∈ items, Tells admitted text EndsExpr item)
    (admits : ∀ item ∈ items, admitted item)
    (begins : ∀ item, admitted item → ∀ rest, ¬ EndsExpr (text item ++ rest)) :
    Tells (fun items => ∀ item ∈ items, admitted item) (commaList text) EndsList items :=
  fun _ admits' _ _ isEnd isEnd' same =>
    tells_intercalate each admits admits' begins (fun _ => endsExpr_cons (by decide) _)
      isEnd.endsExpr isEnd'.endsExpr (not_comma_of_endsList isEnd) (not_comma_of_endsList isEnd')
      same

end Commas

/-- A text between two marks, with the marks inside written twice, ends where a mark stands
alone. -/
theorem doubling_append_inj {mark : Char} {value value' rest rest' : List Char}
    (ends : rest.head? ≠ some mark) (ends' : rest'.head? ≠ some mark)
    (same : Text.doubling mark value ++ mark :: rest = Text.doubling mark value' ++ mark :: rest') :
    value = value' ∧ rest = rest' := by
  have doubling_cons (char : Char) (value : List Char) : Text.doubling mark (char :: value) =
      char :: if char = mark then mark :: Text.doubling mark value
        else Text.doubling mark value := by
    rw [Text.doubling, List.flatMap_cons, ← Text.doubling]
    split <;> rename_i isMark
    · rw [isMark]
      rfl
    · rfl
  induction value generalizing value' with
  | nil =>
    cases value' with
    | nil => exact ⟨rfl, (List.cons.inj same).2⟩
    | cons char value' =>
      rw [doubling_cons] at same
      obtain ⟨rfl, rests⟩ := List.cons.inj same
      exact absurd (by rw [rests]; simp) ends
  | cons char value ih =>
    rw [doubling_cons] at same
    cases value' with
    | nil =>
      obtain ⟨rfl, rests⟩ := List.cons.inj same
      exact absurd (by rw [← rests]; simp) ends'
    | cons char' value' =>
      rw [doubling_cons] at same
      obtain ⟨rfl, more⟩ := List.cons.inj same
      have values : Text.doubling mark value ++ mark :: rest =
          Text.doubling mark value' ++ mark :: rest' := by
        split at more
        · exact (List.cons.inj more).2
        · exact more
      obtain ⟨rfl, rfl⟩ := ih values
      exact ⟨rfl, rfl⟩

end Reading

end TablePipeline

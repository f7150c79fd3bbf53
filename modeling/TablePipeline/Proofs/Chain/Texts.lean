import TablePipeline.Proofs.Chain.Alike
import TablePipeline.Proofs.Chain.VerbTexts
import TablePipeline.Proofs.Dictionary

/-! # Chains are told from their texts

The text of a chain tells its steps, and the columns of its sources, if all names in it are plain.
It does not tell the keys of the sources, which decide nothing about what a run gives. So chains
that were built and that have one text give the same tables. A name that is not plain can be taken
for something else.
-/

namespace TablePipeline

open Reading

/-! ## Steps -/

namespace Chain

/-- The chain without the schemas of its sources. -/
def bare : Chain → Chain
  | source name _ => source name ⟨[], [], []⟩
  | apply input verb => apply input.bare verb
  | join input right kind pairs => join input.bare right.bare kind pairs

/-- The steps of a chain, without the schemas of its sources. -/
def steps : Chain → List Step
  | source name _ => [.source name]
  | apply input verb => input.steps ++ [.verb verb]
  | join input right kind pairs => input.steps ++ [.join kind right.bare pairs]

/-- Are all names in a chain plain, those of the columns of its sources among them? -/
def Plain : Chain → Prop
  | source name schema => PlainName name ∧ ∀ column ∈ schema.columns, PlainName column.name
  | apply input verb => input.Plain ∧ verb.Plain
  | join input right _ pairs =>
    input.Plain ∧ right.Plain ∧ ∀ pair ∈ pairs, PlainName pair.1 ∧ PlainName pair.2

theorem Plain.bare {chain : Chain} (plain : chain.Plain) : chain.bare.Plain := by
  induction chain with
  | source name schema => exact ⟨plain.1, fun _ member => nomatch member⟩
  | apply input verb ih => exact ⟨ih plain.1, plain.2⟩
  | join input right kind pairs ih ih' => exact ⟨ih plain.1, ih' plain.2.1, plain.2.2⟩

end Chain

namespace Step

/-- The first word of a step. -/
def word : Step → List Char
  | source _ => "source".toList
  | .verb operation => operation.name.toList
  | join kind _ _ => kind.name.toList

/-- The text of a step behind its first word. -/
def payload : Step → List Char
  | source name => name.toList
  | .verb operation => operation.payload
  | join _ right pairs =>
    '[' :: ((" | ".intercalate right.stepTexts).toList ++ ']' :: (" on (".toList ++
      (commaList (fun pair => pair.1.toList ++ ([' ', '=', ' '] ++ pair.2.toList)) pairs ++ [')'])))

/-- The text of a step. -/
def chars (step : Step) : List Char :=
  step.word ++ ' ' :: step.payload

/-- Are all names in a step plain? -/
def Plain : Step → Prop
  | source name => PlainName name
  | .verb operation => operation.Plain
  | join _ right pairs =>
    right.Plain ∧ right.bare = right ∧ ∀ pair ∈ pairs, PlainName pair.1 ∧ PlainName pair.2

/-- Is a step told from its text? -/
abbrev Told (step : Step) : Prop :=
  Tells Plain chars EndsList step

theorem word_word (step : Step) : Word step.word := by
  cases step with
  | source name => exact (by decide : Word "source".toList)
  | verb operation => exact word_verbName operation
  | join kind right pairs =>
    cases kind with
    | inner => exact (by decide : Word "inner_join".toList)
    | left => exact (by decide : Word "left_join".toList)

end Step

namespace Chain

end Chain

/-! ## Telling steps -/

namespace Step

theorem chars_append_inj {step other : Step} {rest rest' : List Char}
    (same : step.chars ++ rest = other.chars ++ rest') :
    step.word = other.word ∧ step.payload ++ rest = other.payload ++ rest' := by
  simp only [chars, List.append_assoc, List.cons_append] at same
  obtain ⟨words, behind⟩ := word_append_inj step.word_word other.word_word
    (endsWord_cons (by decide) _) (endsWord_cons (by decide) _) same
  exact ⟨words, (List.cons.inj behind).2⟩

end Step

namespace Chain

end Chain

/-! ## Sources -/

/-- The text of the type of a column. -/
def typeChars (type : CellType) (nullable : Bool) : List Char :=
  type.name.toList ++ if nullable then ['?'] else []

/-- The text of a column. -/
def columnChars (column : Column) : List Char :=
  column.name.toList ++ ':' :: ' ' :: typeChars column.type column.nullable

/-- The line of a source. -/
def headerChars (entry : String × Schema) : List Char :=
  ['-', '-', ' '] ++ (entry.1.toList ++ ' ' :: '(' ::
    (commaList columnChars entry.2.columns ++ [')', '\n']))

namespace Chain

/-- Is every source of a chain declared with its schema? -/
def DeclaredIn (sources : Dictionary String Schema) : Chain → Prop
  | source name schema => sources.find? name = some schema
  | apply input _ => input.DeclaredIn sources
  | join input right _ _ => input.DeclaredIn sources ∧ right.DeclaredIn sources

variable {chain chain' : Chain} {known known' : Signature}

theorem DeclaredIn.mono {sources more : Dictionary String Schema}
    (kept : ∀ name schema, sources.find? name = some schema → more.find? name = some schema)
    (declared : chain.DeclaredIn sources) : chain.DeclaredIn more := by
  induction chain with
  | source name schema => exact kept name schema declared
  | apply input verb ih => exact ih declared
  | join input right kind pairs ih ih' => exact ⟨ih declared.1, ih' declared.2⟩

/-- The text of a chain is made of the lines of its sources and of its steps. -/
theorem toList_text (chain : Chain) :
    chain.text.toList = chain.signature.sources.entries.flatMap headerChars ++
      "\n| ".toList.intercalate (chain.stepTexts.map String.toList) := by
  have line (entry : String × Schema) :
      (s!"-- {entry.1} {entry.2.text}\n").toList = headerChars entry := by
    have column : String.toList ∘ Schema.columnText = columnChars := by
      funext column
      cases nullable : column.nullable <;>
        simp [Schema.columnText, columnChars, typeChars, nullable, toString]
    simp [headerChars, Schema.text, commaList, toString, column]
  rw [text, String.toList_append, String.toList_intercalate, String.toList_join, List.flatMap_map]
  simp only [line]

end Chain

end TablePipeline

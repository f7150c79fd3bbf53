import TablePipeline.Chain.Signature

/-! # Written chains

The canonical text of a chain lists its sources with their schemas, and then its steps.
-/

namespace TablePipeline

/-- Named items, each as `name = item`. -/
def assignmentsText (items : List (String × String)) : String :=
  ", ".intercalate (items.map fun (name, item) => s!"{name} = {item}")

/-- The rows a window function sees, and their order. -/
def Window.overText (window : Window) : String :=
  let partition :=
    if window.partitionBy.isEmpty then ""
    else "partition by " ++ ", ".intercalate window.partitionBy ++ " "
  "(" ++ partition ++ "order by " ++ ", ".intercalate (window.orderBy.map OrderKey.text) ++ ")"

/-- The written form of an operation. -/
def Verb.text (verb : Verb) : String :=
  verb.name ++ " " ++
    match verb with
    | select columns | groupBy columns => ", ".intercalate columns
    | mutate assignments => assignmentsText (assignments.map fun (name, expr) => (name, expr.text))
    | filter predicate => predicate.text
    | summarise aggregates =>
      assignmentsText (aggregates.map fun (name, aggregate) => (name, aggregate.text))
    | orderBy keys => ", ".intercalate (keys.map OrderKey.text)
    | window added => s!"{added.name} = {added.function.text} over {added.overText}"
    | rename name => name

namespace Chain

/-- The written steps of a chain, the source first. -/
def stepTexts : Chain → List String
  | source name _ => [s!"source {name}"]
  | apply input verb => input.stepTexts ++ [verb.text]
  | join input right kind pairs =>
    input.stepTexts ++
      [kind.name ++ " [" ++ " | ".intercalate right.stepTexts ++ "] on (" ++ pairsText pairs ++ ")"]

/-- The canonical text of a chain. -/
def text (chain : Chain) : String :=
  let sources := chain.signature.sources.entries.map fun (name, schema) =>
    s!"-- {name} {schema.text}\n"
  String.join sources ++ "\n| ".intercalate chain.stepTexts

end Chain

end TablePipeline

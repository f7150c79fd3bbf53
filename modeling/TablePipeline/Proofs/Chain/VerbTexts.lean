import TablePipeline.Chain.Printer
import TablePipeline.Proofs.Expr.Texts

/-! # Operations are told from their texts

What an operation is made of, aggregates and windows and ordering keys, is told from its text, and
so is the operation itself. All names in it have to be plain.
-/

namespace TablePipeline

open Reading

variable {rest rest' : List Char}

/-- Do all columns in an aggregate have plain names? -/
def Aggregate.Plain (aggregate : Aggregate) : Prop :=
  ∀ argument ∈ aggregate.argument, argument.Plain

/-- Do all columns in a window function have plain names? -/
def WindowFunction.Plain (function : WindowFunction) : Prop :=
  ∀ argument ∈ function.argument?, argument.Plain

/-- Are all names in a window plain, the one of its column among them? -/
structure Window.Plain (window : Window) : Prop where
  name : PlainName window.name
  function : window.function.Plain
  partitionBy : ∀ name ∈ window.partitionBy, PlainName name
  orderBy : ∀ key ∈ window.orderBy, PlainName key.column

/-- The columns of a partition, as they are written in front of an order. -/
def partitionText (columns : List String) : List Char :=
  if columns.isEmpty then []
  else "partition by ".toList ++ (commaList String.toList columns ++ [' '])

/-- The text of a window. -/
def Window.chars (window : Window) : List Char :=
  window.name.toList ++ ([' ', '=', ' '] ++ (window.function.text.toList ++
    ' ' :: ("over (".toList ++ (partitionText window.partitionBy ++ ("order by ".toList ++
      (commaList (fun key => key.text.toList) window.orderBy ++ [')']))))))

/-- Are all names in an operation plain? -/
def Verb.Plain : Verb → Prop
  | select columns | groupBy columns => ∀ name ∈ columns, PlainName name
  | mutate assignments => ∀ item ∈ assignments, PlainName item.1 ∧ item.2.Plain
  | filter predicate => predicate.Plain
  | summarise aggregates => ∀ item ∈ aggregates, PlainName item.1 ∧ item.2.Plain
  | orderBy keys => ∀ key ∈ keys, PlainName key.column
  | window added => added.Plain
  | rename name => PlainName name

/-- The text of an operation behind its name. -/
def Verb.payload : Verb → List Char
  | select columns | groupBy columns => commaList String.toList columns
  | mutate assignments =>
    commaList (fun item => item.1.toList ++ ([' ', '=', ' '] ++ item.2.text.toList)) assignments
  | filter predicate => predicate.text.toList
  | summarise aggregates =>
    commaList (fun item => item.1.toList ++ ([' ', '=', ' '] ++ item.2.text.toList)) aggregates
  | orderBy keys => commaList (fun key => key.text.toList) keys
  | window added => added.chars
  | rename name => name.toList

theorem toList_assignmentsText (items : List (String × String)) :
    (assignmentsText items).toList =
      commaList (fun item => item.1.toList ++ ([' ', '=', ' '] ++ item.2.toList)) items := by
  rw [assignmentsText, String.toList_intercalate, List.map_map, commaList]
  congr 2
  funext item
  simp [toString]

theorem Verb.text_eq (verb : Verb) :
    verb.text.toList = verb.name.toList ++ ' ' :: verb.payload := by
  cases verb with
  | select columns | groupBy columns => simp [Verb.text, payload, commaList]
  | filter predicate => simp [Verb.text, payload]
  | rename name => simp [Verb.text, payload]
  | orderBy keys => simp [Verb.text, payload, commaList, Function.comp_def]
  | mutate assignments | summarise assignments =>
    simp [Verb.text, payload, toList_assignmentsText, commaList, Function.comp_def]
  | window added =>
    by_cases empty : added.partitionBy.isEmpty <;>
      simp [Verb.text, payload, Window.chars, Window.overText, toString, commaList,
        Function.comp_def, partitionText, empty]

theorem word_verbName (verb : Verb) : Word verb.name.toList := by
  have names : ∀ name ∈ ["select", "mutate", "filter", "group_by", "summarise", "order_by",
      "window", "alias"], Word name.toList := by decide
  exact names _ (by cases verb <;> simp [Verb.name])

end TablePipeline

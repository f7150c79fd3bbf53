import TablePipeline.Cell.Text

/-! # SQL as a list of pieces

A query is put together from four kinds of piece: words and punctuation, quoted names, numbered
parameters, and literals that stand in place. Only when it is written does it become text; until
then a name cannot be mistaken for a word, and a parameter can be traced to its value.
-/

namespace TablePipeline

/-- One piece of a query. -/
inductive SqlPiece where
  /-- Words and punctuation, written as they are. -/
  | words (text : String)
  /-- The name of a table or a column. -/
  | name (name : String)
  /-- A parameter, counted from one. -/
  | parameter (number : Nat)
  /-- A literal in place. -/
  | value (cell : Cell)
deriving DecidableEq

/-- A query, or a part of one. -/
abbrev Sql := List SqlPiece

namespace Sql

/-- Words and punctuation alone. -/
def words (text : String) : Sql :=
  [.words text]

/-- A name alone. -/
def name (name : String) : Sql :=
  [.name name]

/-- Parts with words between them. -/
def separated (separator : String) (parts : List Sql) : Sql :=
  List.intercalate (words separator) parts

/-- Names with commas between them. -/
def names (names : List String) : Sql :=
  separated ", " (names.map name)

/-- The query with the values of its parameters in place. A parameter without a value stays. -/
def substitute (parameters : List Cell) (sql : Sql) : Sql :=
  sql.map fun
    | .parameter number =>
      match parameters[number - 1]? with
      | some cell => .value cell
      | none => .parameter number
    | piece => piece

/-- The numbers of the parameters, in the order in which they are written. -/
def parameterNumbers (sql : Sql) : List Nat :=
  sql.filterMap fun
    | .parameter number => some number
    | _ => none

end Sql

/-- The engines that queries are written for. -/
inductive Dialect where
  | sqlite
  | postgres
deriving DecidableEq, Repr

namespace Dialect

/-- The name of a dialect. -/
def name : Dialect → String
  | sqlite => "sqlite"
  | postgres => "postgres"

/-- The written form of a parameter. -/
def placeholder (dialect : Dialect) (number : Nat) : String :=
  (match dialect with
    | sqlite => "?"
    | postgres => "$") ++ toString number

/-- A name between double quotes, with the quotes inside written twice. -/
def quote (name : String) : String :=
  Text.enclosed '"' name

end Dialect

/-- The written form of a piece. -/
def SqlPiece.text (dialect : Dialect) : SqlPiece → String
  | words text => text
  | name quoted => Dialect.quote quoted
  | parameter number => dialect.placeholder number
  | value cell => cell.noted

/-- The written form of a query. -/
def Sql.text (dialect : Dialect) (sql : Sql) : String :=
  String.join (sql.map (SqlPiece.text dialect))

end TablePipeline

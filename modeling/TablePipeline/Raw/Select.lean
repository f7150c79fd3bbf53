import TablePipeline.Cell.Basic
import TablePipeline.Number.Decimal
import TablePipeline.Raw.Token

/-! # Simple selections

The part of SQL that is read here: columns, literals and `*` from one table or from none, several
such selections in a row, and one column that orders the rows of all of them.
-/

namespace TablePipeline

/-- What a selection gives in a column. -/
inductive SelectedValue where
  | column (name : String)
  | literal (value : Cell)

/-- One item of a selection. -/
inductive SelectItem where
  /-- All columns of the table, and the position last. -/
  | all
  /-- A value under a name. -/
  | named (value : SelectedValue) (name : String)
  /-- A value without a name, as it is written. -/
  | bare (value : SelectedValue) (text : String)

/-- Items from a table, or from no table. -/
structure Selection where
  items : List SelectItem
  table : Option String

/-- The column that orders the rows. -/
structure SelectOrder where
  column : String
  descending : Bool

/-- Selections one after another, and the order of all rows. -/
structure SelectQuery where
  selections : List Selection
  order : Option SelectOrder

namespace SqlToken

/-- The name that a token writes for a table or a column. -/
def name? : SqlToken → Option String
  | word text => some text
  | quoted '"' text => some text
  | _ => none

/-- The name that a token gives a value. -/
def label? : SqlToken → Option String
  | word text | quoted _ text => some text
  | _ => none

/-- The number that digits write: an integer if 64 bits hold it, and a double if not. -/
def number? (negative : Bool) (text : String) : Option Cell :=
  let digits := text.toList
  let asFloat := (Number.ofDecimal? digits).map fun value =>
    Cell.float (if negative then -value else value)
  if digits.all Char.isDigit then
    let magnitude := Number.ofDigits digits
    match Number.int64? (if negative then -(magnitude : Int) else magnitude) with
    | some value => some (.int value)
    | none => asFloat
  else asFloat

/-- The value that some tokens write. -/
def value? : List SqlToken → Option SelectedValue
  | [symbol '-', number text] => (number? true text).map .literal
  | [number text] => (number? false text).map .literal
  | [quoted '\'' text] => some (.literal (.text text))
  | [token] =>
    if token.isKeyword "NULL" then some (.literal .null) else token.name?.map .column
  | _ => none

/-- The item that some tokens write. -/
def item? (tokens : List SqlToken) : Option SelectItem :=
  match splitAt (isKeyword "AS") tokens with
  | [value] =>
    match value.filter (!·.isBlank) with
    | [symbol '*'] => some .all
    | words => (value? words).map (.bare · (String.join ((trim value).map written)))
  | [value, label] => do
    let value ← value? (value.filter (!·.isBlank))
    match trim label with
    | [token] => return .named value (← token.label?)
    | _ => none
  | _ => none

/-- The table that some tokens name. -/
def table? (tokens : List SqlToken) : Option String :=
  match trim tokens with
  | [token] => token.name?
  | _ => none

/-- The selection that some tokens write. -/
def selection? (tokens : List SqlToken) : Option Selection :=
  match trim tokens with
  | [] => none
  | first :: rest => do
    if !first.isKeyword "SELECT" then none
    let (items, table) ← match splitAt (isKeyword "FROM") rest with
      | [items] => some (items, none)
      | [items, table] => (table? table).map fun name => (items, some name)
      | _ => none
    return { items := ← (splitAt (· == symbol ',') items).mapM item?, table }

/-- The selections that some tokens write. -/
def selections? (tokens : List SqlToken) : Option (List Selection) :=
  match splitAt (isKeyword "UNION") tokens with
  | [] => none
  | first :: others => do
    let first ← selection? first
    let others ← others.mapM fun other =>
      match trim other with
      | token :: rest => if token.isKeyword "ALL" then selection? rest else none
      | [] => none
    return first :: others

/-- The order that the tokens after `ORDER` write. -/
def order? (tokens : List SqlToken) : Option SelectOrder :=
  match tokens.filter (!·.isBlank) with
  | [first, column] => do
    if !first.isKeyword "BY" then none
    return ⟨← column.name?, false⟩
  | [first, column, last] => do
    if !first.isKeyword "BY" then none
    let column ← column.name?
    if last.isKeyword "DESC" then return ⟨column, true⟩
    else if last.isKeyword "ASC" then return ⟨column, false⟩
    else none
  | _ => none

end SqlToken

/-- The query that a text writes. -/
def SelectQuery.ofText? (text : String) : Option SelectQuery :=
  match SqlToken.splitAt (SqlToken.isKeyword "ORDER") (SqlToken.ofText text) with
  | [tokens] => do return ⟨← SqlToken.selections? tokens, none⟩
  | [tokens, order] => do
    return ⟨← SqlToken.selections? tokens, some (← SqlToken.order? order)⟩
  | _ => none

end TablePipeline

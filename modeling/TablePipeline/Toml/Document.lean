import TablePipeline.Toml.Scalar

/-! # Documents in TOML

A document is read as the list of its table headers and of its pairs of a key and a value. A value
is a scalar, a list of scalars or an inline table of scalars; a document with anything deeper is
refused, as no setting holds such a value.
-/

namespace TablePipeline.Toml

/-- The parts of a dotted key. -/
abbrev Key := List String

/-- What a key stands for. -/
inductive Value where
  | scalar (value : Scalar)
  | list (values : List Scalar)
  | table (entries : List (Key × Scalar))

/-- One line of a document. -/
inductive Entry where
  /-- A header: the pairs after it belong to this table. -/
  | header (table : Key)
  | pair (key : Key) (value : Value)

/-- The text without blanks in front. -/
def dropBlanks (text : List Char) : List Char :=
  text.dropWhile fun char => char == ' ' || char == '\t'

/-- The text without blanks, line breaks and comments in front. -/
def dropLines : (comment : Bool) → List Char → List Char
  | _, [] => []
  | _, '\n' :: rest | _, '\r' :: '\n' :: rest => dropLines false rest
  | false, '#' :: rest => dropLines true rest
  | false, ' ' :: rest | false, '\t' :: rest => dropLines false rest
  | false, char :: rest => char :: rest
  | true, char :: rest => if isControl char then char :: rest else dropLines true rest

/-- May the character stand in a key without quotes? -/
def isKeyChar (char : Char) : Bool :=
  char.isAlphanum || char == '_' || char == '-'

/-- One part of a key. -/
def keyPart (text : List Char) : Option (String × List Char) :=
  match text with
  | '"' :: rest => (basicText rest).map fun (part, after) => (String.ofList part, after)
  | '\'' :: rest => (literalText rest).map fun (part, after) => (String.ofList part, after)
  | _ =>
    match text.takeWhile isKeyChar with
    | [] => none
    | part => some (String.ofList part, text.dropWhile isKeyChar)

/-- A key, and the text after it without blanks in front. -/
def key (text : List Char) : Option (Key × List Char) := do
  let (part, rest) ← keyPart text
  match dropBlanks rest with
  | '.' :: more =>
    let next := dropBlanks more
    if next.length < text.length then
      let (parts, after) ← key next
      return (part :: parts, after)
    else none
  | after => return ([part], after)
termination_by text.length

/-- The elements of a list, after the opening bracket or a comma. -/
def elements (text : List Char) : Option (List Scalar × List Char) :=
  match dropLines false text with
  | ']' :: rest => some ([], rest)
  | start => do
    let (value, rest) ← scalar start
    match dropLines false rest with
    | ',' :: more =>
      if more.length < text.length then
        let (values, after) ← elements more
        return (value :: values, after)
      else none
    | ']' :: after => return ([value], after)
    | _ => none
termination_by text.length

/-- A key and a scalar, and the text after them without blanks in front. -/
def scalarPair (text : List Char) : Option ((Key × Scalar) × List Char) := do
  let (name, rest) ← key text
  match rest with
  | '=' :: rest =>
    let (value, rest) ← scalar (dropBlanks rest)
    return ((name, value), dropBlanks rest)
  | _ => none

/-- The pairs of an inline table that is not empty. -/
def members (text : List Char) : Option (List (Key × Scalar) × List Char) := do
  let (pair, rest) ← scalarPair text
  match rest with
  | ',' :: more =>
    let next := dropBlanks more
    if next.length < text.length then
      let (pairs, after) ← members next
      return (pair :: pairs, after)
    else none
  | '}' :: after => return ([pair], after)
  | _ => none
termination_by text.length

/-- A value at the start of a text. -/
def value (text : List Char) : Option (Value × List Char) :=
  match text with
  | '[' :: rest => (elements rest).map fun (values, after) => (.list values, after)
  | '{' :: rest =>
    match dropBlanks rest with
    | '}' :: after => some (.table [], after)
    | start => (members start).map fun (pairs, after) => (.table pairs, after)
  | _ => (scalar text).map fun (found, after) => (.scalar found, after)

/-- A header or a pair at the start of a text. -/
def entry (text : List Char) : Option (Entry × List Char) :=
  match text with
  | '[' :: rest => do
    let (table, rest) ← key (dropBlanks rest)
    match rest with
    | ']' :: after => return (.header table, after)
    | _ => none
  | _ => do
    let (name, rest) ← key text
    match rest with
    | '=' :: rest =>
      let (found, after) ← value (dropBlanks rest)
      return (.pair name found, after)
    | _ => none

/-- What follows an entry on its line must be blank or a comment. -/
def closeLine (text : List Char) : Option (List Char) :=
  let rest := match dropBlanks text with
    | '#' :: comment => comment.dropWhile (!isControl ·)
    | rest => rest
  match rest with
  | [] => some []
  | '\n' :: after | '\r' :: '\n' :: after => some after
  | _ => none

/-- The entries of a document. -/
def entries (text : List Char) : Option (List Entry) :=
  match dropLines false text with
  | [] => some []
  | start => do
    let (first, rest) ← entry start
    let next ← closeLine rest
    if next.length < text.length then return first :: (← entries next) else none
termination_by text.length

/-- The entries of a document, which may start with a byte order mark. -/
def document (text : String) : Option (List Entry) :=
  match text.toList with
  | '\ufeff' :: rest => entries rest
  | chars => entries chars

end TablePipeline.Toml

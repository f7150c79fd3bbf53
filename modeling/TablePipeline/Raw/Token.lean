import TablePipeline.Text.Quoted

/-! # Words of a query

A query text is read into tokens one character at a time. A bare name starts with a letter, an
underscore or any character beyond ASCII and may go on with digits and dollar signs. A number starts
with a digit or a point, and a sign may follow the mark of its exponent. A quote inside quotes is
written twice. Blanks are kept, so that a token list still says how the text was written.
-/

namespace TablePipeline

/-- A part of a query text. -/
inductive SqlToken where
  | blank (char : Char)
  /-- A keyword or a bare name. -/
  | word (text : String)
  /-- The digits of a number with its point and its exponent. -/
  | number (text : String)
  /-- A text between quotes, without them. -/
  | quoted (mark : Char) (text : String)
  | symbol (char : Char)
deriving DecidableEq, Repr

namespace SqlToken

/-- May a bare name start with the character? -/
def startsName (char : Char) : Bool :=
  char.isAlpha || char == '_' || 0x80 ≤ char.toNat

/-- May the character stand in a bare name after the first one? -/
def continuesName (char : Char) : Bool :=
  startsName char || char.isDigit || char == '$'

/-- May the character come next in a number of which some characters are read? A name that touches
the number is read into it, so that no number comes out of the two. -/
def continuesNumber (read : List Char) (char : Char) : Bool :=
  continuesName char || char == '.' ||
    ((char == '+' || char == '-') && (read.getLast? == some 'e' || read.getLast? == some 'E'))

/-- Where the reader of a text is. -/
inductive Reader where
  | between
  | inWord (read : List Char)
  | inNumber (read : List Char)
  | inQuotes (mark : Char) (read : List Char)
  /-- After a quote that ends the text unless another one follows. -/
  | closing (mark : Char) (read : List Char)

namespace Reader

/-- The token that ends here, if the reader is in one. -/
def finish : Reader → List SqlToken
  | between => []
  | inWord read => [.word (String.ofList read)]
  | inNumber read => [.number (String.ofList read)]
  | inQuotes mark read | closing mark read => [.quoted mark (String.ofList read)]

/-- The tokens of a character that starts something new, and the reader after it. -/
def start (char : Char) : List SqlToken × Reader :=
  if char == '\'' || char == '"' then ([], inQuotes char [])
  else if startsName char then ([], inWord [char])
  else if char.isDigit || char == '.' then ([], inNumber [char])
  else if char.isWhitespace || char == '\x0c' then ([.blank char], between)
  else ([.symbol char], between)

/-- The tokens that a character ends, and the reader after it. -/
def step (reader : Reader) (char : Char) : List SqlToken × Reader :=
  let fresh := (reader.finish ++ (start char).1, (start char).2)
  match reader with
  | between => fresh
  | inWord read => if continuesName char then ([], inWord (read ++ [char])) else fresh
  | inNumber read => if continuesNumber read char then ([], inNumber (read ++ [char])) else fresh
  | inQuotes mark read =>
    if char == mark then ([], closing mark read) else ([], inQuotes mark (read ++ [char]))
  | closing mark read => if char == mark then ([], inQuotes mark (read ++ [char])) else fresh

end Reader

/-- The tokens from a place on. -/
def read (reader : Reader) : List Char → List SqlToken
  | [] => reader.finish
  | char :: rest =>
    let (tokens, next) := reader.step char
    tokens ++ read next rest

/-- The tokens of a text. -/
def ofText (text : String) : List SqlToken :=
  read .between text.toList

/-- The token as it stands in the text. -/
def written : SqlToken → String
  | blank char | symbol char => char.toString
  | word text | number text => text
  | quoted mark text => Text.enclosed mark text

/-- Is the token a blank? -/
def isBlank : SqlToken → Bool
  | blank _ => true
  | _ => false

/-- Is the token a keyword? Keywords are read in either case. -/
def isKeyword (keyword : String) : SqlToken → Bool
  | word text => text.toUpper = keyword
  | _ => false

/-- The tokens without the blanks at both ends. -/
def trim (tokens : List SqlToken) : List SqlToken :=
  ((tokens.dropWhile isBlank).reverse.dropWhile isBlank).reverse

/-- The parts between the tokens that separate them. -/
def splitAt (separates : SqlToken → Bool) : List SqlToken → List (List SqlToken)
  | [] => [[]]
  | token :: rest =>
    match splitAt separates rest with
    | [] => [[token]]
    | first :: others =>
      if separates token then [] :: first :: others else (token :: first) :: others

end SqlToken

end TablePipeline

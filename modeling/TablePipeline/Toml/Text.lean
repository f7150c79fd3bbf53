/-! # Texts in TOML

The two kinds of quoted text, each on one line or on several. A basic text knows escapes; a literal
one keeps every character. Each reader starts after the opening quotes and gives the text and what
follows the closing ones. Control characters other than tabs stand in no text.
-/

namespace TablePipeline.Toml

/-- Is the character a control character that no text and no comment may hold? -/
def isControl (char : Char) : Bool :=
  (char.toNat < 32 && char != '\t') || char.toNat == 127

/-- The value of a hexadecimal digit, of either case. -/
def hexValue? (char : Char) : Option Nat :=
  if '0' ≤ char ∧ char ≤ '9' then some (char.toNat - '0'.toNat)
  else if 'a' ≤ char ∧ char ≤ 'f' then some (char.toNat - 'a'.toNat + 10)
  else if 'A' ≤ char ∧ char ≤ 'F' then some (char.toNat - 'A'.toNat + 10)
  else none

/-- The character of a code point in hexadecimal digits. -/
def codePoint? (digits : List Char) : Option Char := do
  let values ← digits.mapM hexValue?
  let code := values.foldl (fun code digit => 16 * code + digit) 0
  if code.isValidChar then some (Char.ofNat code) else none

/-- The character that a letter stands for behind a backslash. -/
def escape? : Char → Option Char
  | 'b' => some '\x08'
  | 't' => some '\t'
  | 'n' => some '\n'
  | 'f' => some '\x0c'
  | 'r' => some '\r'
  | '"' => some '"'
  | '\\' => some '\\'
  | _ => none

/-- A character in front of a text that was read. -/
def push (char : Option Char) (rest : Option (List Char × List Char)) :
    Option (List Char × List Char) := do
  let (text, after) ← rest
  return ((← char) :: text, after)

/-- A basic text on one line. -/
def basicText : List Char → Option (List Char × List Char)
  | [] => none
  | '"' :: rest => some ([], rest)
  | '\\' :: 'u' :: a :: b :: c :: d :: rest => push (codePoint? [a, b, c, d]) (basicText rest)
  | '\\' :: 'U' :: a :: b :: c :: d :: e :: f :: g :: h :: rest =>
    push (codePoint? [a, b, c, d, e, f, g, h]) (basicText rest)
  | '\\' :: letter :: rest => push (escape? letter) (basicText rest)
  | char :: rest => if isControl char then none else push (some char) (basicText rest)

/-- A literal text on one line. -/
def literalText : List Char → Option (List Char × List Char)
  | [] => none
  | '\'' :: rest => some ([], rest)
  | char :: rest => if isControl char then none else push (some char) (literalText rest)

/-- The text without a line break in front. -/
def dropBreak : List Char → List Char
  | '\n' :: rest => rest
  | '\r' :: '\n' :: rest => rest
  | text => text

/-- Does the line end here, but for blanks? -/
def endsLine (text : List Char) : Bool :=
  match text.dropWhile fun char => char == ' ' || char == '\t' with
  | '\n' :: _ | '\r' :: '\n' :: _ => true
  | _ => false

/-- A basic text on several lines. Two more quotes than the closing three belong to the text, and a
backslash at the end of a line skips all blanks and line breaks after it. -/
def basicLines : (skipping : Bool) → List Char → Option (List Char × List Char)
  | _, [] => none
  | true, ' ' :: rest | true, '\t' :: rest | true, '\n' :: rest => basicLines true rest
  | true, '\r' :: '\n' :: rest => basicLines true rest
  | _, '"' :: '"' :: '"' :: '"' :: '"' :: rest => some (['"', '"'], rest)
  | _, '"' :: '"' :: '"' :: '"' :: rest => some (['"'], rest)
  | _, '"' :: '"' :: '"' :: rest => some ([], rest)
  | _, '\\' :: 'u' :: a :: b :: c :: d :: rest =>
    push (codePoint? [a, b, c, d]) (basicLines false rest)
  | _, '\\' :: 'U' :: a :: b :: c :: d :: e :: f :: g :: h :: rest =>
    push (codePoint? [a, b, c, d, e, f, g, h]) (basicLines false rest)
  | _, '\\' :: letter :: rest =>
    if endsLine (letter :: rest) then basicLines true (letter :: rest)
    else push (escape? letter) (basicLines false rest)
  | _, '\n' :: rest | _, '\r' :: '\n' :: rest => push (some '\n') (basicLines false rest)
  | _, char :: rest =>
    if isControl char then none else push (some char) (basicLines false rest)

/-- A literal text on several lines. -/
def literalLines : List Char → Option (List Char × List Char)
  | [] => none
  | '\'' :: '\'' :: '\'' :: '\'' :: '\'' :: rest => some (['\'', '\''], rest)
  | '\'' :: '\'' :: '\'' :: '\'' :: rest => some (['\''], rest)
  | '\'' :: '\'' :: '\'' :: rest => some ([], rest)
  | '\n' :: rest | '\r' :: '\n' :: rest => push (some '\n') (literalLines rest)
  | char :: rest => if isControl char then none else push (some char) (literalLines rest)

/-- A quoted text of any kind. -/
def quotedText : List Char → Option (List Char × List Char)
  | '"' :: '"' :: '"' :: rest => basicLines false (dropBreak rest)
  | '\'' :: '\'' :: '\'' :: rest => literalLines (dropBreak rest)
  | '"' :: rest => basicText rest
  | '\'' :: rest => literalText rest
  | _ => none

end TablePipeline.Toml

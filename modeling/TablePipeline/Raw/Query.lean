import TablePipeline.Chain.Basic
import TablePipeline.Sql.Basic

/-! # Hand-written queries

The text of a hand-written query refers to a table by its name between braces. Braces around
anything but a name stand for themselves. `RawQuery.pieces` splits a text around its references, and
`RawQuery.resolve` writes them as quoted names.
-/

namespace TablePipeline

/-- A query in the words of an engine. -/
structure RawQuery where
  name : String
  text : String
  /-- The schema of the result; without one it is inferred from the values. -/
  schema : Option Schema := none
  /-- The chain that the text is written to mean, for engines that cannot read it. -/
  meaning : Option Chain := none

/-- A part of a hand-written query. -/
inductive RawPiece where
  | character (char : Char)
  /-- The name of a table, between braces. -/
  | reference (name : String)
deriving DecidableEq, Repr

/-- May the character stand in the name of a referenced table? -/
def isReferenceChar (char : Char) : Bool :=
  char.isAlphanum || char == '_'

/-- The name that starts here and ends with a closing brace, and the text after the brace. -/
def reference? (text : List Char) : Option (String × List Char) :=
  match text.takeWhile isReferenceChar, text.dropWhile isReferenceChar with
  | char :: chars, '}' :: rest => some (String.ofList (char :: chars), rest)
  | _, _ => none

theorem length_of_reference? {text rest : List Char} {name : String}
    (found : reference? text = some (name, rest)) : rest.length < text.length := by
  have bound : (text.dropWhile isReferenceChar).length ≤ text.length :=
    (List.dropWhile_sublist isReferenceChar).length_le
  unfold reference? at found
  split at found
  · rename_i dropped
    cases found
    rw [dropped] at bound
    exact bound
  · cases found

/-- The parts of a text. -/
def rawPieces : List Char → List RawPiece
  | [] => []
  | '{' :: rest =>
    match _found : reference? rest with
    | some (name, after) => .reference name :: rawPieces after
    | none => .character '{' :: rawPieces rest
  | char :: rest => .character char :: rawPieces rest
termination_by text => text.length
decreasing_by
  · exact Nat.lt_succ_of_lt (length_of_reference? _found)
  · exact Nat.lt_succ_self _
  · exact Nat.lt_succ_self _

namespace RawPiece

/-- The part as it stands in the text. -/
def text : RawPiece → String
  | character char => char.toString
  | reference name => "\x7b" ++ name ++ "\x7d"

/-- The part as it is given to an engine. -/
def resolved : RawPiece → String
  | character char => char.toString
  | reference name => Dialect.quote name

/-- The table that a part refers to. -/
def name? : RawPiece → Option String
  | character _ => none
  | reference name => some name

end RawPiece

namespace RawQuery

/-- The parts of the query. -/
def pieces (query : RawQuery) : List RawPiece :=
  rawPieces query.text.toList

/-- The tables the query refers to, in the order of first use. -/
def bindings (query : RawQuery) : List String :=
  (query.pieces.filterMap RawPiece.name?).eraseDups

/-- The text with every reference as a quoted name. -/
def resolve (query : RawQuery) : String :=
  String.join (query.pieces.map RawPiece.resolved)

/-- The text, and the schema if one is declared. -/
def describe (query : RawQuery) : String :=
  match query.schema with
  | some schema => s!"{query.text}\n-- as {schema.text}"
  | none => query.text

end RawQuery

end TablePipeline

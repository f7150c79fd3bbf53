import TablePipeline.Schema

/-! # Errors of building a chain

Everything that can be wrong with a chain is found while it is built, before any row is seen.
-/

namespace TablePipeline

/-- Where a column name or an expression stands. -/
inductive Clause where
  | select
  | mutate
  | filter
  | join
  | groupBy
  | summarise
  | orderBy
  | window
  | evaluation
  | cast
deriving DecidableEq, Repr

/-- The written name of a clause. -/
def Clause.name : Clause → String
  | select => "select"
  | mutate => "mutate"
  | filter => "filter"
  | join => "join"
  | groupBy => "group_by"
  | summarise => "summarise"
  | orderBy => "order_by"
  | window => "window"
  | evaluation => "eval"
  | cast => "cast"

/-- What an operand should have been. -/
inductive Wanted where
  | exactly (type : CellType)
  | numeric
  | ordered
deriving DecidableEq, Repr

/-- The written form of what was wanted. -/
def Wanted.text : Wanted → String
  | exactly type => type.name
  | numeric => "a numeric type"
  | ordered => "an ordered type"

/-- What is wrong with a join. -/
inductive JoinError where
  | emptyPredicate
  | notKeyEquivalent (pairs : List (String × String))
  | keyType (left : String) (leftType : CellType) (right : String) (rightType : CellType)
deriving DecidableEq, Repr

/-- The written form of join pairs. -/
def pairsText (pairs : List (String × String)) : String :=
  ", ".intercalate (pairs.map fun (left, right) => s!"{left} = {right}")

/-- The text of a join error. -/
def JoinError.message : JoinError → String
  | emptyPredicate => "Join requires at least one equality predicate"
  | notKeyEquivalent pairs =>
    s!"Join on [{pairsText pairs}] does not cover a primary or unique key of either side"
  | keyType left leftType right rightType =>
    s!"Cannot join `{left}` ({leftType.name}) with `{right}` ({rightType.name})"

/-- What is wrong with a chain. -/
inductive ChainError where
  | unknownColumn (name : String) (clause : Clause) (available : List String)
  | unorderedWindow (function : String)
  | duplicateColumn (name : String)
  | typeMismatch (context : String) (wanted : Wanted) (found : CellType)
  | untypedNull
  | invalidCast (source target : CellType)
  | arity (function : String) (expected found : Nat)
  | invalidJoin (error : JoinError)
  | notAggregate (verb : String)
  | emptySelect
  | emptyOrder
  | misplacedSource
  | conflictingSource (name : String)
deriving DecidableEq, Repr

/-- The text of an error. -/
def ChainError.message : ChainError → String
  | unknownColumn name clause available =>
    s!"Unknown column `{name}` in `{clause.name}`; available columns are [" ++
      ", ".intercalate available ++ "]"
  | unorderedWindow function => s!"Window function `{function}` requires an ordering key"
  | duplicateColumn name => s!"Duplicate column `{name}`"
  | typeMismatch context wanted found =>
    s!"Type mismatch in `{context}`: expected {wanted.text}, found {found.name}"
  | untypedNull => "Cannot infer the type of a null literal; use a typed null"
  | invalidCast source target => s!"Cannot cast {source.name} to {target.name}"
  | arity function expected found =>
    s!"Function `{function}` takes {expected} arguments, found {found}"
  | invalidJoin error => error.message
  | notAggregate verb => s!"`{verb}` cannot follow `group_by`; only `summarise` or `alias` can"
  | emptySelect => "`select` requires at least one column"
  | emptyOrder => "`order_by` requires at least one key"
  | misplacedSource => "A source can only start a chain"
  | conflictingSource name => s!"Source `{name}` is bound to two different schemas"

namespace Schema

/-- The position of a column that a clause names. -/
def resolve (schema : Schema) (clause : Clause) (name : String) : Except ChainError Nat :=
  match schema.position? name with
  | some position => .ok position
  | none => .error (.unknownColumn name clause schema.names)

/-- The column that a clause names. -/
def resolveColumn (schema : Schema) (clause : Clause) (name : String) :
    Except ChainError Column :=
  match schema.column? name with
  | some column => .ok column
  | none => .error (.unknownColumn name clause schema.names)

end Schema

end TablePipeline

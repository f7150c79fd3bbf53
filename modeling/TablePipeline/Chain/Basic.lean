import TablePipeline.Dictionary
import TablePipeline.Expr.Basic

/-! # Chains

A chain describes a transformation of tables without naming an engine. It starts at a source and is
extended one step at a time; a join brings in a second chain. The tree below is what a chain says,
checked or not: `Chain.signature?` tells what is known about the rows after its last step, and fails
exactly on the chains that cannot be built.
-/

namespace TablePipeline

/-- Which rows of the left side a join keeps. -/
inductive JoinKind where
  /-- Those with a partner on the right. -/
  | inner
  /-- All of them. -/
  | left
deriving DecidableEq, Repr

/-- The two sides of a join. -/
inductive Side where
  | left
  | right
deriving DecidableEq, Repr

/-- Where a column of a join comes from: a side, and a position in the schema of that side. -/
structure JoinColumn where
  side : Side
  index : Nat
deriving DecidableEq, Repr

/-- A column that is computed over the ordered rows of each partition. -/
structure Window where
  name : String
  function : WindowFunction
  partitionBy : List String
  orderBy : List OrderKey

/-- One operation on the rows of a single chain. -/
inductive Verb where
  | select (columns : List String)
  /-- All values are computed from the row before the step. -/
  | mutate (assignments : List (String × Expr String))
  | filter (predicate : Expr String)
  | groupBy (columns : List String)
  | summarise (aggregates : List (String × Aggregate))
  | orderBy (keys : List OrderKey)
  | window (window : Window)
  | rename (name : String)

/-- The written name of an operation. -/
def Verb.name : Verb → String
  | select _ => "select"
  | mutate _ => "mutate"
  | filter _ => "filter"
  | groupBy _ => "group_by"
  | summarise _ => "summarise"
  | orderBy _ => "order_by"
  | window _ => "window"
  | rename _ => "alias"

/-- The written name of a join. -/
def JoinKind.name : JoinKind → String
  | inner => "inner_join"
  | left => "left_join"

/-- A source and the steps after it. -/
inductive Chain where
  | source (name : String) (schema : Schema)
  | apply (input : Chain) (verb : Verb)
  | join (input right : Chain) (kind : JoinKind) (pairs : List (String × String))

namespace Chain

instance : Inhabited Chain := ⟨source "" ⟨[], [], []⟩⟩

/-- The name of the last step. -/
def stepName : Chain → String
  | source .. => "source"
  | apply _ verb => verb.name
  | join _ _ kind _ => kind.name

/-- The chain after each of its steps, the source first. -/
def lineage : Chain → List Chain
  | chain@(source ..) => [chain]
  | chain@(apply input _) => input.lineage ++ [chain]
  | chain@(join input _ _ _) => input.lineage ++ [chain]

end Chain

/-- A request to extend a chain. -/
inductive Step where
  | source (name : String)
  | verb (verb : Verb)
  | join (kind : JoinKind) (right : Chain) (pairs : List (String × String))

end TablePipeline

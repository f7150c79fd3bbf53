import TablePipeline.Chain.Signature
import TablePipeline.Equivalence
import TablePipeline.Pipeline.Passengers
import TablePipeline.Raw.Query

/-! # Bundled pipelines

A pipeline is a chain over the passengers and their cabins, beside a query for the same work that is
written by hand, and the metrics under which the two are compared.
-/

namespace TablePipeline

/-- The tables that pipelines read. -/
inductive PipelineTable where
  | passengers
  | cabins
deriving DecidableEq, Repr

namespace PipelineTable

/-- The name of a table. -/
def name : PipelineTable → String
  | passengers => "passengers"
  | cabins => "cabins"

/-- The schema of a table. -/
def schema : PipelineTable → Schema
  | passengers => Passengers.passengerSchema
  | cabins => Passengers.cabinSchema

/-- Draws a table for a number of passengers. -/
def draw (table : PipelineTable) (count : Nat) : Drawing (Except TableError Table) :=
  match table with
  | passengers => Passengers.passengers count
  | cabins => Passengers.cabins count

/-- The chain that gives a table as it is. -/
def chain (table : PipelineTable) : Chain :=
  .source table.name table.schema

end PipelineTable

/-- The bundled pipelines. -/
inductive Pipeline where
  /-- Passengers with their cabins, and what they pay in all. -/
  | joinDerive
  /-- Passengers of a known age, by decade. -/
  | ageBucket
  /-- The place of each passenger within the class by fare, and the step from the place before. -/
  | fareWindow
deriving DecidableEq, Repr

namespace Pipeline

/-- All pipelines, in order. -/
def all : List Pipeline := [joinDerive, ageBucket, fareWindow]

/-- The name of a pipeline. -/
def name : Pipeline → String
  | joinDerive => "join-derive"
  | ageBucket => "age-bucket"
  | fareWindow => "fare-window"

/-- What a pipeline does, in one line. -/
def about : Pipeline → String
  | joinDerive => "left join passengers to cabins and derive the total fare"
  | ageBucket => "count passengers and average their fare per age decade"
  | fareWindow =>
    "number passengers by fare within their class, with the gap to the previous fare"

/-- The pipeline of a name. -/
def ofName? (name : String) : Option Pipeline :=
  all.find? (·.name = name)

/-- What is said of a name that no pipeline has. -/
def unknownMessage (name : String) : String :=
  s!"unknown pipeline `{name}`, expected one of: " ++ ", ".intercalate (all.map Pipeline.name)

/-- The tables that a pipeline reads. -/
def reads : Pipeline → List PipelineTable
  | joinDerive => [.passengers, .cabins]
  | ageBucket | fareWindow => [.passengers]

/-- Ascending order by a column, nulls last. -/
def ascending (column : String) : OrderKey :=
  ⟨column, false, .last⟩

/-- A column over the passengers of each class in the order of their fares. -/
def byFare (name : String) (function : WindowFunction) : Verb :=
  .window ⟨name, function, ["class"], [ascending "fare"]⟩

/-- The steps of a pipeline that follow its last join, in order. -/
def verbs : Pipeline → List Verb
  | joinDerive =>
    [.mutate [("total", .binary (.arithmetic .add) (.column "fare")
      (.call .coalesce [.column "surcharge", .literal (.float 0.0)]))]]
  | ageBucket =>
    [.filter (.unary .isNotNull (.column "age")),
     .mutate [("bucket", .call (.round (-1)) [.column "age"])],
     .groupBy ["bucket"],
     .summarise [("n", ⟨.countRows, none⟩), ("mean_fare", ⟨.mean, some (.column "fare")⟩)],
     .orderBy [ascending "bucket"]]
  | fareWindow =>
    [byFare "rn" .rowNumber,
     byFare "prev" (.lag (.column "fare") 1),
     .mutate [("gap", .binary (.arithmetic .subtract) (.column "fare") (.column "prev"))],
     .orderBy [ascending "class", ascending "rn"],
     .select ["pk", "class", "fare", "rn", "gap"]]

/-- What the steps of a pipeline start from. -/
def start : Pipeline → Chain
  | joinDerive =>
    .join PipelineTable.passengers.chain PipelineTable.cabins.chain .left [("pk", "pk")]
  | ageBucket | fareWindow => PipelineTable.passengers.chain

/-- The chain of a pipeline. -/
def chain (pipeline : Pipeline) : Chain :=
  pipeline.verbs.foldl .apply pipeline.start

/-- The query that is written by hand. It breaks ties by the order of the input, as the chain
does. -/
def oracle : Pipeline → String
  | joinDerive =>
    "SELECT p.pk AS pk, p.class AS class, p.age AS age, p.fare AS fare, " ++
      "c.deck AS deck, c.surcharge AS surcharge, p.fare + COALESCE(c.surcharge, 0.0) AS total " ++
      "FROM \x7bpassengers\x7d AS p LEFT JOIN \x7bcabins\x7d AS c ON p.pk = c.pk ORDER BY p.__ord"
  | ageBucket =>
    "SELECT ROUND(age / 10.0) * 10.0 AS bucket, COUNT(*) AS n, AVG(fare) AS mean_fare " ++
      "FROM \x7bpassengers\x7d WHERE age IS NOT NULL GROUP BY bucket ORDER BY bucket"
  | fareWindow =>
    "SELECT pk, class, fare, " ++
      "ROW_NUMBER() OVER (PARTITION BY class ORDER BY fare, __ord) AS rn, " ++
      "fare - LAG(fare) OVER (PARTITION BY class ORDER BY fare, __ord) AS gap " ++
      "FROM \x7bpassengers\x7d ORDER BY class, rn"

/-- The query that is written by hand, with what it is written to mean. -/
def rawQuery (pipeline : Pipeline) : RawQuery where
  name := pipeline.name
  text := pipeline.oracle
  schema := some pipeline.chain.schema
  meaning := some pipeline.chain

/-- The metrics under which outputs are compared. A wide output is compared by the one column that
matters, and a small one as a whole. -/
def reduction : Pipeline → Reduction
  | joinDerive => .single (.sum "total")
  | ageBucket | fareWindow => .summary

end Pipeline

end TablePipeline

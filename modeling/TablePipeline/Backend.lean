import TablePipeline.Chain.Demand
import TablePipeline.Chain.Printer
import TablePipeline.Raw.Run

/-! # Backends

A backend is what runs queries. The eager one runs a chain step by step. The compiled one turns a
chain into SQL, and the raw one takes SQL that is written by hand. A backend also describes a query:
equal descriptions stand for equal work.
-/

namespace TablePipeline

/-- The ways of running a query. -/
inductive BackendKind where
  | eager
  | compiled
  | raw
deriving DecidableEq, Repr

namespace BackendKind

/-- All kinds, in order. -/
def all : List BackendKind := [eager, compiled, raw]

/-- The written form of a kind. -/
def text : BackendKind → String
  | eager => "eager"
  | compiled => "lazy"
  | raw => "raw"

/-- The name of a backend that is given no other. -/
def defaultName : BackendKind → String
  | eager => "eager"
  | compiled => "sqlite"
  | raw => "raw_sqlite"

end BackendKind

/-- What a backend is asked to run. -/
inductive Query where
  | chain (chain : Chain)
  | raw (query : RawQuery)

namespace Query

/-- The written form of the kind of a query. -/
def kindText : Query → String
  | chain _ => "chain"
  | raw _ => "raw"

/-- The names of the tables that a query reads. -/
def inputs : Query → List String
  | chain plan => plan.signature.sources.keys
  | raw query => query.bindings

end Query

namespace CompiledQuery

/-- What an engine hands back for the query that a plan is compiled to: the rows of the plan under
the names of its columns. An engine says nothing about where an integer overflows. -/
def result (plan : Chain) (query : CompiledQuery) (inputs : Inputs) :
    Except RunError ResultSet := do
  match ← plan.demandedRows? inputs with
  | some rows => return ⟨query.schema.names.map (⟨·, none⟩), rows⟩
  | none => throw (.engine "integer overflow")

/-- The table that the query of a plan gives. -/
def run (plan : Chain) (query : CompiledQuery) (inputs : Inputs) : Except RunError Table := do
  let result ← query.result plan inputs
  (Table.ofRows query.name query.schema (← result.conform query.schema)).mapError .table

end CompiledQuery

/-- Something that runs queries, under a name. -/
structure Backend where
  name : String
  kind : BackendKind
deriving DecidableEq, Repr

namespace Backend

/-- The backend of a kind under its usual name. -/
def ofKind (kind : BackendKind) : Backend :=
  ⟨kind.defaultName, kind⟩

/-- The error for a query that the backend does not take. -/
def unsupported (backend : Backend) (query : Query) : RunError :=
  .unsupportedQuery backend.name query.kindText

/-- The text that stands for the work of a query. -/
def describe (backend : Backend) (query : Query) : Except RunError String :=
  match backend.kind, query with
  | .eager, .chain chain => .ok chain.text
  | .compiled, .chain chain => ((chain.compile .sqlite).map (·.text)).mapError .compile
  | .raw, .raw query => .ok query.describe
  | _, _ => .error (backend.unsupported query)

/-- Compiles a chain, looks up its sources in the order of their names, and runs the query. -/
def runCompiled (inputs : Inputs) (chain : Chain) : Except RunError Table := do
  let query ← (chain.compile .sqlite).mapError .compile
  let plan ← chain.plan.mapError .compile
  let _ ← chain.signature.sources.entries.mapM fun (name, schema) => inputs.source name schema
  query.run plan inputs

/-- The table that a query gives. -/
def execute (backend : Backend) (query : Query) (inputs : Inputs) : Except RunError Table :=
  match backend.kind, query with
  | .eager, .chain chain => chain.run inputs
  | .compiled, .chain chain => runCompiled inputs chain
  | .raw, .raw query => query.run inputs
  | _, _ => .error (backend.unsupported query)

end Backend

end TablePipeline

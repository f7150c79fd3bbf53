import TablePipeline.Chain.Printer
import TablePipeline.Pipeline.Basic
import TablePipeline.Registry
import TablePipeline.Sql.Query
import TablePipeline.Text.Grid

/-! # Pipelines for a reader

The answers of the command line. Every answer ends with a line break.
-/

namespace TablePipeline

namespace Pipeline

/-- All pipelines and the backends that can run them. -/
def overview : String :=
  let grid : Text.Grid :=
    { header := ["pipeline", "about"]
      rows := all.map fun pipeline => [pipeline.name, pipeline.about] }
  grid.text ++ "\n\nbackends: " ++ ", ".intercalate Registry.usual.names ++ "\n"

/-- The query of a pipeline in a dialect, under a line that names the dialect. -/
def compiledText (pipeline : Pipeline) (dialect : Dialect) : Except CompileError String := do
  let query ← pipeline.chain.compile dialect
  return s!"-- {dialect.name}\n{query.text}\n\n"

/-- The chain of a pipeline and its queries. -/
def explanation (pipeline : Pipeline) : Except CompileError String := do
  let compiled ← [Dialect.sqlite, .postgres].mapM pipeline.compiledText
  return pipeline.chain.text ++ "\n\n" ++ String.join compiled ++ "-- raw\n" ++
    pipeline.oracle ++ "\n"

end Pipeline

/-- The name and the version of the program. -/
def versionText : String := "tabflow 0.3.0\n"

/-- What the command line answers. -/
inductive CommandAnswer where
  | output (text : String)
  /-- A request that cannot be met. -/
  | refused (reason : String)

/-- The answer to the arguments of the command line. -/
def CommandAnswer.ofArguments : List String → CommandAnswer
  | ["list"] => output Pipeline.overview
  | ["explain", name] =>
    match Pipeline.ofName? name with
    | none => refused (Pipeline.unknownMessage name)
    | some pipeline =>
      match pipeline.explanation with
      | .ok text => output text
      | .error error => refused error.message
  | ["--version"] => output versionText
  | _ => refused "expected one of: list, explain <pipeline>, --version"

end TablePipeline

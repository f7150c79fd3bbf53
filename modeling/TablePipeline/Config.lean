import TablePipeline.Number.Notation
import TablePipeline.Schema
import TablePipeline.Dictionary
import TablePipeline.Toml.Document

/-! # Settings of a run

The settings are read from a TOML document; a setting that it does not mention keeps its usual
value, and one that is not known makes it invalid.
-/

namespace TablePipeline

/-- The settings of a run. -/
structure RunConfig where
  /-- The backends that take part, by name. The first one is the reference of all comparisons. -/
  backends : List String := ["eager", "sqlite", "raw_sqlite"]
  /-- Stands in front of the namespace of every stage. -/
  namespacePrefix : String := ""
  /-- The relative tolerance between doubles. -/
  tolerance : Float := 1e-9
  maxWorkers : Nat := 4
  /-- Run every task anew, and store its outputs. -/
  ignoreCache : Bool := false
  /-- Start no more tasks of a stage once one of them failed. -/
  stopStageOnFailure : Bool := false
  /-- Names that outputs are stored under in place of the name of their stage. -/
  stageNamespaces : Dictionary String String := {}

/-- What is wrong with settings. -/
inductive ConfigError where
  | unreadable
  /-- The document is not TOML, or has no such settings. -/
  | malformed
  | noWorkers
  | badTolerance (tolerance : Float)
  | repeatedBackend (name : String)
  | unknownBackend (name : String)

/-- The text of an error. -/
def ConfigError.message : ConfigError → String
  | unreadable => "Unable to read config file"
  | malformed => "Invalid config"
  | noWorkers => "Invalid config: `max_workers` must be at least 1"
  | badTolerance tolerance =>
    "Invalid config: `tolerance` must be a non-negative number, got " ++
      Number.text .plain tolerance
  | repeatedBackend name => s!"Invalid config: backend `{name}` is listed twice"
  | unknownBackend name => s!"No backend is registered as `{name}`"

namespace RunConfig

/-- Checks settings: workers first, then the tolerance, then the backends. -/
def check (config : RunConfig) : Except ConfigError Unit :=
  if config.maxWorkers = 0 then .error .noWorkers
  else if !(config.tolerance.isFinite && 0.0 ≤ config.tolerance) then
    .error (.badTolerance config.tolerance)
  else
    match firstRepeated? [] config.backends with
    | some name => .error (.repeatedBackend name)
    | none => .ok ()

/-- The namespace that the outputs of a stage are stored under. -/
def namespaceOf (config : RunConfig) (stage : String) : String :=
  config.namespacePrefix ++ (config.stageNamespaces.find? stage).getD stage

/-- The setting of a text. -/
def textOf? : Toml.Value → Option String
  | .scalar (.text value) => some value
  | _ => none

/-- The setting of a truth value. -/
def boolOf? : Toml.Value → Option Bool
  | .scalar (.bool value) => some value
  | _ => none

/-- The setting of a number. -/
def floatOf? : Toml.Value → Option Float
  | .scalar (.float value) => some value
  | .scalar (.int value) => some (Number.toFloat value)
  | _ => none

/-- The setting of a count. -/
def countOf? : Toml.Value → Option Nat
  | .scalar (.int value) => if value < 0 then none else some value.toInt.toNat
  | _ => none

/-- The setting of a list of texts. -/
def textsOf? : Toml.Value → Option (List String)
  | .list values => values.mapM fun value => textOf? (.scalar value)
  | _ => none

/-- The namespace of one more stage, which must not have one yet. -/
def addNamespace (config : RunConfig) (stage : String) (value : Toml.Value) : Option RunConfig := do
  if config.stageNamespaces.contains stage then none
  else return { config with
    stageNamespaces := config.stageNamespaces.insertNamed stage (← textOf? value) }

/-- A setting outside of all tables. -/
def set (config : RunConfig) (name : String) (value : Toml.Value) : Option RunConfig :=
  match name with
  | "backends" => do return { config with backends := ← textsOf? value }
  | "namespace_prefix" => do return { config with namespacePrefix := ← textOf? value }
  | "tolerance" => do return { config with tolerance := ← floatOf? value }
  | "max_workers" => do return { config with maxWorkers := ← countOf? value }
  | "ignore_cache" => do return { config with ignoreCache := ← boolOf? value }
  | "stop_stage_on_failure" => do return { config with stopStageOnFailure := ← boolOf? value }
  | "stage_namespaces" =>
    match value with
    | .table entries => entries.foldlM (fun config (key, value) =>
        match key with
        | [stage] => config.addNamespace stage (.scalar value)
        | _ => none) config
    | _ => none
  | _ => none

/-- The way in which the namespaces of stages are given; a document uses one of them. -/
inductive NamespaceForm where
  | absent
  | inline
  | dotted
  /-- Under a header; whether the reader is still below it. -/
  | table
deriving DecidableEq, Repr

/-- What has been read of a document. -/
structure Reading where
  config : RunConfig := {}
  /-- The settings seen so far. -/
  seen : List String := []
  namespaces : NamespaceForm := .absent

/-- Reads one entry of a document. -/
def Reading.step (reading : Reading) : Toml.Entry → Option Reading
  | .header ["stage_namespaces"] =>
    if reading.namespaces = .absent then some { reading with namespaces := .table } else none
  | .header _ => none
  | .pair key value =>
    match reading.namespaces, key with
    | .table, [stage] => do
      return { reading with config := ← reading.config.addNamespace stage value }
    | .table, _ => none
    | form, ["stage_namespaces", stage] =>
      if form = .inline then none
      else do
        return { reading with
          config := ← reading.config.addNamespace stage value
          namespaces := .dotted }
    | form, [name] =>
      if reading.seen.contains name then none
      else if name = "stage_namespaces" ∧ form ≠ .absent then none
      else do
        return { reading with
          config := ← reading.config.set name value
          seen := name :: reading.seen
          namespaces := if name = "stage_namespaces" then .inline else form }
    | _, _ => none

/-- The settings of a document, before they are checked. -/
def ofDocument? (text : String) : Option RunConfig := do
  return (← (← Toml.document text).foldlM Reading.step {}).config

/-- The settings of a document. -/
def ofText (text : String) : Except ConfigError RunConfig :=
  match ofDocument? text with
  | none => .error .malformed
  | some config => config.check.map fun () => config

end RunConfig

end TablePipeline

import TablePipeline.Equivalence
import TablePipeline.Random.Generator
import TablePipeline.Store

/-! # Tasks

A task turns artifacts into artifacts. It has a name, a version that tells changes of its body
apart, parameters, and references to the outputs of other tasks that it reads. Its body is a
function of a context, which holds all that the body may look at.
-/

namespace TablePipeline

/-- The identity of a task: its stage and its name. -/
structure TaskId where
  stage : String
  name : String
deriving DecidableEq, Repr

namespace TaskId

/-- The written form of an identity. -/
def text (id : TaskId) : String :=
  s!"{id.stage}/{id.name}"

/-- Identities are ordered by stage, and by name inside a stage. -/
def compare (a b : TaskId) : Ordering :=
  (Ord.compare a.stage b.stage).then (Ord.compare a.name b.name)

end TaskId

/-- Does a task give equal outputs for equal inputs? -/
inductive Determinism where
  | deterministic
  /-- The task always runs, and its outputs are stored where no others are. -/
  | nonCacheable
deriving DecidableEq, Repr

/-- An output that a task declares. -/
structure OutputSpec where
  name : String
  kind : ArtifactKind
deriving DecidableEq, Repr

/-- A reference to one output of a task. -/
structure OutputRef where
  task : TaskId
  index : Nat
  name : String
  kind : ArtifactKind
deriving DecidableEq, Repr

/-- Why a task did not give its outputs. -/
inductive TaskError where
  | failed (reason : String)
  | panicked (reason : String)
  | outputCount (task : TaskId) (expected found : Nat)
  | outputKind (task : TaskId) (output : String) (expected found : ArtifactKind)
  | inputKind (index : Nat) (expected found : ArtifactKind)
  | missingInput (index : Nat)
  | unseeded (task : TaskId)
  | notMaterialized (task : TaskId)
  | aborted (cause : TaskId)
  | stageStopped (stage : String)
  | validation (error : ValidationError)
  | store (error : StoreError)
deriving DecidableEq

/-- The text of an error. -/
def TaskError.message : TaskError → String
  | failed reason => s!"Task failed: {reason}"
  | panicked reason => s!"Task panicked: {reason}"
  | outputCount task expected found =>
    s!"Task `{task.text}` returned {found} artifacts, it declares {expected}"
  | outputKind task output expected found =>
    s!"Output `{output}` of task `{task.text}` is a {found.name}, " ++
      s!"it is declared as a {expected.name}"
  | inputKind index expected found =>
    s!"Input {index} is a {found.name}, expected a {expected.name}"
  | missingInput index => s!"Task has no input {index}"
  | unseeded task =>
    s!"Task `{task.text}` draws randomness but declares neither a seed nor non-cacheable"
  | notMaterialized task => s!"Task `{task.text}` is not selected and has no cached outputs"
  | aborted cause => s!"Aborted because `{cause.text}` did not succeed"
  | stageStopped stage => s!"Aborted because another task of stage `{stage}` failed"
  | validation error => error.message
  | store error => error.message

/-- What the body of a task sees. -/
structure TaskContext where
  id : TaskId
  inputs : List Artifact
  params : Dictionary String String
  seed : Option UInt64
  determinism : Determinism
  /-- A seed of its own for a task that may draw without a declared one. -/
  entropy : UInt64

namespace TaskContext

/-- An input. -/
def input (context : TaskContext) (index : Nat) : Except TaskError Artifact :=
  match context.inputs[index]? with
  | some artifact => .ok artifact
  | none => .error (.missingInput index)

/-- An input that has to be a table. -/
def table (context : TaskContext) (index : Nat) : Except TaskError Table := do
  match ← context.input index with
  | .table table => return table
  | .blob _ => throw (.inputKind index .table .blob)

/-- An input that has to be a blob. -/
def blob (context : TaskContext) (index : Nat) : Except TaskError Blob := do
  match ← context.input index with
  | .blob blob => return blob
  | .table _ => throw (.inputKind index .blob .table)

/-- All inputs, which have to be tables. -/
def tables (context : TaskContext) : Except TaskError (List Table) :=
  (List.range context.inputs.length).mapM context.table

/-- The value of a parameter. -/
def param? (context : TaskContext) (key : String) : Option String :=
  context.params.find? key

/-- The generator of the declared seed. Without one, only a task that is not cached may draw. -/
def generator (context : TaskContext) : Except TaskError Generator :=
  match context.seed, context.determinism with
  | some seed, _ => .ok (.ofSeed seed)
  | none, .nonCacheable => .ok (.ofSeed context.entropy)
  | none, .deterministic => .error (.unseeded context.id)

end TaskContext

/-- What a task does. -/
abbrev TaskBody := TaskContext → Except TaskError (List Artifact)

/-- A task that is not part of a graph yet. -/
structure Task where
  name : String
  version : String
  body : TaskBody
  inputs : List OutputRef := []
  /-- The outputs that are declared; see `Task.outputs`. -/
  declared : List OutputSpec := []
  /-- The parameters in the order of their keys. -/
  params : Dictionary String String := {}
  seed : Option UInt64 := none
  determinism : Determinism := .deterministic

namespace Task

/-- The outputs of a task. One that declares none gives a table under its own name. -/
def outputs (task : Task) : List OutputSpec :=
  if task.declared.isEmpty then [⟨task.name, .table⟩] else task.declared

/-- Reads one more output of another task. -/
def addInput (task : Task) (input : OutputRef) : Task :=
  { task with inputs := task.inputs ++ [input] }

/-- Declares one more output. -/
def addOutput (task : Task) (name : String) (kind : ArtifactKind) : Task :=
  { task with declared := task.declared ++ [⟨name, kind⟩] }

/-- Gives a parameter a value. -/
def setParam (task : Task) (key value : String) : Task :=
  { task with params := task.params.insertNamed key value }

/-- The references to the outputs of a task in a stage. -/
def refs (task : Task) (stage : String) : List OutputRef :=
  task.outputs.mapIdx fun index output => ⟨⟨stage, task.name⟩, index, output.name, output.kind⟩

end Task

end TablePipeline

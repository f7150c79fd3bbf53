import TablePipeline.Task.Identity

/-! # Materialising a task

The outputs of an invocation are taken from the store if it has them, and otherwise the body of the
task runs and its outputs are checked and stored. Nothing is stored unless all outputs are as they
are declared.
-/

namespace TablePipeline

/-- An artifact at its address. -/
structure StoredOutput where
  address : Address
  artifact : Artifact

/-- Where outputs came from. -/
inductive Source where
  | cache
  | executed
  /-- Another caller ran the same invocation at the same time. -/
  | coalesced
deriving DecidableEq, Repr

/-- The written form of a source. -/
def Source.text : Source → String
  | cache => "cache"
  | executed => "executed"
  | coalesced => "coalesced"

/-- How the cache is used. -/
inductive Mode where
  /-- Take outputs from the cache, and run the task if it has none. -/
  | normal
  /-- Run the task without a look at the cache. -/
  | recompute
  /-- Take outputs from the cache, and fail if it has none. -/
  | cacheOnly
deriving DecidableEq, Repr

/-- A task that is to be materialised. -/
structure Job where
  id : TaskId
  /-- Stands for the stage where outputs are stored. -/
  namespaceName : String
  task : Task
  inputs : List StoredOutput

/-- The outputs of an invocation. -/
structure Materialized where
  fingerprint : Fingerprint
  outputs : List StoredOutput
  source : Source
  /-- Did the store know of outputs that it could not give back? -/
  inconsistent : Bool

/-- A store, and the tasks whose bodies ran, the first one first. -/
structure Workshop where
  store : Store := {}
  executed : List TaskId := []

namespace Job

/-- The fingerprint of the invocation. -/
def fingerprint (job : Job) : Fingerprint :=
  job.task.fingerprint job.id (job.inputs.map (·.address))

/-- What the body sees. The number of runs before this one serves as its entropy. -/
def context (job : Job) (runs : Nat) : TaskContext where
  id := job.id
  inputs := job.inputs.map (·.artifact)
  params := job.task.params
  seed := job.task.seed
  determinism := job.task.determinism
  entropy := runs.toUInt64

end Job

/-- What the cache has of some outputs. -/
inductive CacheAnswer where
  | hit (outputs : List StoredOutput)
  /-- Some output is not there. -/
  | miss (inconsistent : Bool)

namespace Store

/-- What the cache has of one output. -/
def cachedOutput (store : Store) (key : OutputKey) (kind : ArtifactKind) :
    Except TaskError CacheAnswer :=
  match store.lookup key with
  | .error (.notFound ..) => .ok (.miss false)
  | .error error => .error (.store error)
  | .ok address =>
    match store.get address with
    | .error (.missing _) => .ok (.miss true)
    | .error error => .error (.store error)
    | .ok stored =>
      if stored.kind = kind then .ok (.hit [⟨stored.address, stored.artifact⟩])
      else .ok (.miss true)

/-- What the cache has of the outputs of an invocation. The first output that is not there
decides. -/
def cached (store : Store) (namespaceName : String) (fingerprint : Fingerprint) :
    List OutputSpec → Except TaskError CacheAnswer
  | [] => .ok (.hit [])
  | spec :: rest => do
    match ← store.cachedOutput ⟨namespaceName, spec.name, fingerprint⟩ spec.kind with
    | .miss inconsistent => return .miss inconsistent
    | .hit first =>
      match ← store.cached namespaceName fingerprint rest with
      | .miss inconsistent => return .miss inconsistent
      | .hit others => return .hit (first ++ others)

/-- Stores outputs under the names that they are declared with. -/
def putAll (store : Store) (namespaceName : String) (fingerprint : Fingerprint) :
    List (Artifact × OutputSpec) → Store × List StoredOutput
  | [] => (store, [])
  | (artifact, spec) :: rest =>
    let artifact := artifact.rename spec.name
    let (store, address) := store.put ⟨namespaceName, spec.name, fingerprint⟩ artifact
    let (store, outputs) := store.putAll namespaceName fingerprint rest
    (store, ⟨address, artifact⟩ :: outputs)

end Store

/-- Checks that artifacts are as they are declared. -/
def checkOutputs (id : TaskId) (specs : List OutputSpec) (artifacts : List Artifact) :
    Except TaskError Unit := do
  if artifacts.length ≠ specs.length then
    throw (.outputCount id specs.length artifacts.length)
  match (artifacts.zip specs).find? fun (artifact, spec) => artifact.kind ≠ spec.kind with
  | some (artifact, spec) => throw (.outputKind id spec.name spec.kind artifact.kind)
  | none => return ()

namespace Workshop

/-- The artifacts that the body of a job gives, if they are as they are declared. -/
def produce (runs : Nat) (job : Job) : Except TaskError (List Artifact) := do
  let artifacts ← job.task.body (job.context runs)
  checkOutputs job.id job.task.outputs artifacts
  return artifacts

/-- Runs the body of a job and stores its outputs. -/
def execute (workshop : Workshop) (job : Job) : Workshop × Except TaskError (List StoredOutput) :=
  let runs := workshop.executed.length
  let entered := { workshop with executed := workshop.executed ++ [job.id] }
  match produce runs job with
  | .error error => (entered, .error error)
  | .ok artifacts =>
    let place := job.fingerprint.forStorage job.task.determinism runs
    let (store, outputs) :=
      workshop.store.putAll job.namespaceName place (artifacts.zip job.task.outputs)
    ({ entered with store }, .ok outputs)

/-- Runs a job, given whether the cache turned out inconsistent. -/
def recompute (workshop : Workshop) (job : Job) (inconsistent : Bool) :
    Workshop × Except TaskError Materialized :=
  let (after, result) := workshop.execute job
  (after, result.map fun outputs => ⟨job.fingerprint, outputs, .executed, inconsistent⟩)

/-- Materialises a job. -/
def materialize (workshop : Workshop) (job : Job) (mode : Mode) :
    Workshop × Except TaskError Materialized :=
  let cached := workshop.store.cached job.namespaceName job.fingerprint job.task.outputs
  let served (outputs : List StoredOutput) : Materialized :=
    ⟨job.fingerprint, outputs, .cache, false⟩
  match mode, job.task.determinism with
  | .cacheOnly, _ =>
    match cached with
    | .error error => (workshop, .error error)
    | .ok (.miss _) => (workshop, .error (.notMaterialized job.id))
    | .ok (.hit outputs) => (workshop, .ok (served outputs))
  | _, .nonCacheable | .recompute, .deterministic => workshop.recompute job false
  | .normal, .deterministic =>
    match cached with
    | .error error => (workshop, .error error)
    | .ok (.miss inconsistent) => workshop.recompute job inconsistent
    | .ok (.hit outputs) => (workshop, .ok (served outputs))

end Workshop

end TablePipeline

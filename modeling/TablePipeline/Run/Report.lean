import TablePipeline.Run.Materialize

/-! # Reports of a run

Every task that takes part in a run has a report, which ends in one of four states.
-/

namespace TablePipeline

/-- Where a task is in a run. A task goes from pending to running and then to one of the last
states, or straight from pending to aborted. -/
inductive TaskState where
  | pending
  /-- Handed out. It may still be served from the cache. -/
  | running
  /-- Served from the cache, or by another caller. -/
  | skipped
  | succeeded
  | failed
  /-- Never handed out, as something it depends on did not succeed. -/
  | aborted
deriving DecidableEq, Repr

namespace TaskState

/-- All states, in order. -/
def all : List TaskState := [pending, running, skipped, succeeded, failed, aborted]

/-- The written form of a state. -/
def text : TaskState → String
  | pending => "pending"
  | running => "running"
  | skipped => "skipped"
  | succeeded => "succeeded"
  | failed => "failed"
  | aborted => "aborted"

/-- Does a task stay in this state? -/
def isTerminal : TaskState → Bool
  | pending | running => false
  | skipped | succeeded | failed | aborted => true

/-- Does a task in this state have its outputs? -/
def isSuccess : TaskState → Bool
  | skipped | succeeded => true
  | pending | running | failed | aborted => false

end TaskState

/-- What is known about a task in a run. -/
structure TaskReport where
  id : TaskId
  state : TaskState := .pending
  fingerprint : Option Fingerprint := none
  source : Option Source := none
  outputs : List StoredOutput := []
  error : Option TaskError := none
  inconsistent : Bool := false

namespace TaskReport

/-- The report of a task that is handed out. -/
def started (report : TaskReport) : TaskReport :=
  { report with state := .running }

/-- The report of a task that is never handed out. -/
def abandoned (report : TaskReport) (error : TaskError) : TaskReport :=
  { report with state := .aborted, error := some error }

/-- The report of a task that came back. -/
def finished (report : TaskReport) : Except TaskError Materialized → TaskReport
  | .ok result =>
    { report with
      state := match result.source with
        | .executed => .succeeded
        | .cache | .coalesced => .skipped
      fingerprint := some result.fingerprint
      source := some result.source
      outputs := result.outputs
      inconsistent := result.inconsistent }
  | .error error => { report with state := .failed, error := some error }

end TaskReport

/-- The reports of a run, in the order of the identities of its tasks. -/
structure RunResult where
  tasks : List TaskReport

namespace RunResult

/-- Did every task succeed? -/
def successful (result : RunResult) : Bool :=
  result.tasks.all (·.state.isSuccess)

/-- The report of a task. -/
def report? (result : RunResult) (id : TaskId) : Option TaskReport :=
  result.tasks.find? (·.id = id)

/-- The first output of a task, if it is a table. -/
def table? (result : RunResult) (id : TaskId) : Option Table := do
  (← (← result.report? id).outputs.head?).artifact.asTable?

/-- The number of tasks in a state. -/
def count (result : RunResult) (state : TaskState) : Nat :=
  result.tasks.countP (·.state = state)

/-- The reports of the tasks that did not succeed. -/
def failures (result : RunResult) : List TaskReport :=
  result.tasks.filter fun report => report.state = .failed || report.state = .aborted

end RunResult

end TablePipeline

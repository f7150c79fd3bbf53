import TablePipeline.Task.Basic

/-! # Identities of invocations

The fingerprint of an invocation covers the task with its version, parameters, seed and outputs, and
the address of every input. An address covers the fingerprint of the task that produced the input,
so a change of any task reaches all that depend on it.
-/

namespace TablePipeline

namespace Task

/-- What the fingerprint of an invocation covers. -/
def fields (task : Task) (id : TaskId) (inputs : List Address) : List Field :=
  [.text "stage" id.stage, .text "name" id.name, .text "version" task.version] ++
    task.params.entries.flatMap (fun (key, value) => [.text "param" key, .text "value" value]) ++
    task.seed.toList.map (fun seed => ⟨"seed", Bytes.word seed.toNat⟩) ++
    task.outputs.flatMap (fun output =>
      [.text "output" output.name, .text "kind" output.kind.name]) ++
    inputs.map fun address => .digest "input" address.digest

/-- The fingerprint of an invocation. -/
def fingerprint (task : Task) (id : TaskId) (inputs : List Address) : Fingerprint :=
  .ofFields "task" (task.fields id inputs)

end Task

/-- The fingerprint of one run of a task that is not cached. The nonce is different in every run. -/
def Fingerprint.ofRun (task : Fingerprint) (nonce : Nat) : Fingerprint :=
  .ofFields "nonce" [.digest "task" task.digest, ⟨"nonce", Bytes.littleEndian 16 nonce⟩]

/-- The fingerprint that outputs are stored under. -/
def Fingerprint.forStorage (task : Fingerprint) (determinism : Determinism) (nonce : Nat) :
    Fingerprint :=
  match determinism with
  | .deterministic => task
  | .nonCacheable => task.ofRun nonce

end TablePipeline

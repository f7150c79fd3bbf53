import TablePipeline.Artifact
import TablePipeline.Dictionary
import TablePipeline.Fingerprint

/-! # The artifact store

A store remembers under which address the output of an invocation was written, and keeps the
artifact itself at that address. The two are separate: an artifact that was evicted is gone, but the
store still knows that it existed.
-/

namespace TablePipeline

/-- An artifact with what is recorded about it. -/
structure StoredArtifact where
  address : Address
  fingerprint : Fingerprint
  kind : ArtifactKind
  content : Digest
  artifact : Artifact

/-- Why a store cannot answer. -/
inductive StoreError where
  | notFound (stage name : String) (fingerprint : Fingerprint)
  | missing (address : Address)
deriving DecidableEq

/-- The text of an error. -/
def StoreError.message : StoreError → String
  | notFound stage name fingerprint =>
    s!"No artifact `{stage}/{name}` recorded for fingerprint {fingerprint.text}"
  | missing address => s!"Artifact {address.text} is recorded but its payload is missing"

/-- What an address is recorded for: stage, name and fingerprint. -/
structure OutputKey where
  stage : String
  name : String
  fingerprint : Fingerprint
deriving DecidableEq

/-- The recorded addresses, the artifacts held, and how often one was written. -/
structure Store where
  index : Dictionary OutputKey Address := {}
  payloads : Dictionary Address StoredArtifact := {}
  writes : Nat := 0

namespace Store

/-- The store that never held anything. -/
def empty : Store := {}

/-- What is recorded about an artifact when it is written. -/
def stored (key : OutputKey) (artifact : Artifact) : StoredArtifact where
  address := .ofFingerprint key.stage key.name key.fingerprint
  fingerprint := key.fingerprint
  kind := artifact.kind
  content := artifact.content
  artifact := artifact

/-- Writes an artifact and gives its address. -/
def put (store : Store) (key : OutputKey) (artifact : Artifact) : Store × Address :=
  let entry := stored key artifact
  ({ index := store.index.insert key entry.address
     payloads := store.payloads.insert entry.address entry
     writes := store.writes + 1 }, entry.address)

/-- Reads the artifact at an address. -/
def get (store : Store) (address : Address) : Except StoreError StoredArtifact :=
  match store.payloads.find? address with
  | some entry => .ok entry
  | none => .error (.missing address)

/-- The address that is recorded for an output. -/
def lookup (store : Store) (key : OutputKey) : Except StoreError Address :=
  match store.index.find? key with
  | some address => .ok address
  | none => .error (.notFound key.stage key.name key.fingerprint)

/-- Drops the artifact at an address, and tells whether there was one. The address stays
recorded. -/
def evict (store : Store) (address : Address) : Store × Bool :=
  ({ store with payloads := store.payloads.erase address }, store.payloads.contains address)

/-- Drops the artifacts at some addresses, and tells for each whether there was one. -/
def evictAll (store : Store) : List Address → Store × List Bool
  | [] => (store, [])
  | address :: rest =>
    let (store, was) := store.evict address
    let (store, others) := store.evictAll rest
    (store, was :: others)

/-- The number of artifacts held. -/
def size (store : Store) : Nat :=
  store.payloads.size

/-- The addresses of a stage and name that hold an artifact, in the order of their digests. -/
def addresses (store : Store) (stage name : String) : List Address :=
  (store.payloads.keys.filter fun address => address.stage = stage ∧ address.name = name).mergeSort
    fun a b => a.digest.hex ≤ b.digest.hex

end Store

end TablePipeline

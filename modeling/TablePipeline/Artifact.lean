import TablePipeline.Table

/-! # Artifacts

What a task produces and a store keeps: a table, or bytes without a schema.
-/

namespace TablePipeline

/-- Named bytes. -/
structure Blob where
  name : String
  bytes : Bytes
deriving DecidableEq

/-- The bytes that stand for a blob's content. -/
def Blob.encode (blob : Blob) : Bytes :=
  Bytes.ofText "blob" ++ Bytes.counted blob.bytes

/-- The two kinds of artifact. -/
inductive ArtifactKind where
  | table
  | blob
deriving DecidableEq, Repr

/-- The written name of a kind. -/
def ArtifactKind.name : ArtifactKind → String
  | table => "table"
  | blob => "blob"

/-- What a task produces. -/
inductive Artifact where
  | table (table : Table)
  | blob (blob : Blob)

namespace Artifact

/-- The kind of an artifact. -/
def kind : Artifact → ArtifactKind
  | table _ => .table
  | blob _ => .blob

/-- The name of an artifact. -/
def name : Artifact → String
  | table value => value.name
  | blob value => value.name

/-- The artifact under another name. -/
def rename : Artifact → String → Artifact
  | table value, name => table (value.rename name)
  | blob value, name => blob { value with name }

/-- The table of an artifact that is one. -/
def asTable? : Artifact → Option Table
  | table value => some value
  | blob _ => none

/-- The blob of an artifact that is one. -/
def asBlob? : Artifact → Option Blob
  | blob value => some value
  | table _ => none

/-- The bytes that stand for the content. -/
def encode : Artifact → Bytes
  | table value => value.encode
  | blob value => value.encode

/-- The digest of the content. -/
def content (artifact : Artifact) : Digest :=
  Digest.of artifact.encode

end Artifact

end TablePipeline

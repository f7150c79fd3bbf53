import TablePipeline.Digest

/-! # Fingerprints and addresses

A fingerprint identifies one invocation of a task: equal fingerprints mean interchangeable results.
It is the digest of a domain and of tagged fields, each behind its length, so that the fields can be
read back from the bytes. An address says where an artifact lives and is made of a stage, a name and
the fingerprint of the invocation that produced the artifact.
-/

namespace TablePipeline

/-- A tagged value that a fingerprint covers. -/
structure Field where
  tag : String
  value : Bytes
deriving DecidableEq

namespace Field

/-- A field that holds a text. -/
def text (tag value : String) : Field :=
  ⟨tag, Bytes.ofText value⟩

/-- A field that holds a digest. -/
def digest (tag : String) (value : Digest) : Field :=
  ⟨tag, value.bytes⟩

/-- The bytes of a field. -/
def encode (field : Field) : Bytes :=
  Bytes.counted (Bytes.ofText field.tag) ++ Bytes.counted field.value

end Field

/-- The identity of an invocation. -/
structure Fingerprint where
  digest : Digest
deriving DecidableEq

namespace Fingerprint

/-- The bytes that a fingerprint is the digest of. -/
def encode (domain : String) (fields : List Field) : Bytes :=
  Bytes.counted (Bytes.ofText domain) ++ fields.flatMap Field.encode

/-- The fingerprint of some fields within a domain. -/
def ofFields (domain : String) (fields : List Field) : Fingerprint :=
  ⟨Digest.of (encode domain fields)⟩

/-- All digits of a fingerprint. -/
def text (fingerprint : Fingerprint) : String :=
  fingerprint.digest.hex

/-- The first twelve digits. -/
def short (fingerprint : Fingerprint) : String :=
  fingerprint.digest.short

end Fingerprint

/-- Where an artifact lives. -/
structure Address where
  stage : String
  name : String
  digest : Digest
deriving DecidableEq

namespace Address

/-- What the digest of an address covers. -/
def fields (stage name : String) (fingerprint : Fingerprint) : List Field :=
  [.text "stage" stage, .text "name" name, .digest "fingerprint" fingerprint.digest]

/-- The address of an output of the invocation with the given fingerprint. -/
def ofFingerprint (stage name : String) (fingerprint : Fingerprint) : Address where
  stage := stage
  name := name
  digest := (Fingerprint.ofFields "address" (fields stage name fingerprint)).digest

/-- The written form of an address. -/
def text (address : Address) : String :=
  s!"{address.stage}/{address.name}@{address.digest.short}"

end Address

end TablePipeline

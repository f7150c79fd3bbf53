import TablePipeline.Digest.Blake3

/-! # Digests -/

namespace TablePipeline

/-- The hash of a byte string. -/
structure Digest where
  bytes : Bytes
deriving DecidableEq

namespace Digest

/-- The number of bytes in a digest. -/
def size : Nat := 32

/-- The digest of a byte string. -/
def of (bytes : Bytes) : Digest :=
  ⟨Blake3.hash bytes⟩

/-- Bytes that were a digest before. -/
def ofBytes? (bytes : Bytes) : Option Digest :=
  if bytes.length = size then some ⟨bytes⟩ else none

/-- All digits of a digest. -/
def hex (digest : Digest) : String :=
  Bytes.hex digest.bytes

/-- The first twelve digits. -/
def short (digest : Digest) : String :=
  Bytes.hex (digest.bytes.take 6)

end Digest

end TablePipeline

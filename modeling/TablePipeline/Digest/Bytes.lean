/-! # Byte strings

What is hashed is written first as a list of bytes, so that statements about what a digest depends
on are statements about lists. Lengths and integers are eight bytes, the least significant first.
-/

namespace TablePipeline

/-- A string of bytes. -/
abbrev Bytes := List UInt8

namespace Bytes

/-- The `count` low bytes of a number, the least significant first. -/
def littleEndian : Nat → Nat → Bytes
  | 0, _ => []
  | count + 1, value => value.toUInt8 :: littleEndian count (value / 256)

/-- A length or a 64-bit word. -/
def word (value : Nat) : Bytes :=
  littleEndian 8 value

/-- The UTF-8 encoding of a text. -/
def ofText (text : String) : Bytes :=
  text.toUTF8.toList

/-- A byte string behind its length. -/
def counted (bytes : Bytes) : Bytes :=
  word bytes.length ++ bytes

/-- The two hexadecimal digits of a byte. -/
def hexDigits (byte : UInt8) : List Char :=
  [Nat.digitChar (byte.toNat / 16), Nat.digitChar (byte.toNat % 16)]

/-- Hexadecimal text, two lower-case digits a byte. -/
def hex (bytes : Bytes) : String :=
  String.ofList (bytes.flatMap hexDigits)

/-- The value of a lower-case hexadecimal digit. -/
def hexValue? (digit : Char) : Option Nat :=
  if '0' ≤ digit ∧ digit ≤ '9' then some (digit.toNat - '0'.toNat)
  else if 'a' ≤ digit ∧ digit ≤ 'f' then some (digit.toNat - 'a'.toNat + 10)
  else none

/-- Reads hexadecimal text. -/
def ofHexDigits? : List Char → Option Bytes
  | [] => some []
  | high :: low :: rest => do
    let high ← hexValue? high
    let low ← hexValue? low
    return (16 * high + low).toUInt8 :: (← ofHexDigits? rest)
  | [_] => none

/-- The number whose bytes, the least significant first, are given. -/
def toNat : Bytes → Nat
  | [] => 0
  | byte :: rest => byte.toNat + 256 * toNat rest

end Bytes

end TablePipeline

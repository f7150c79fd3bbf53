import TablePipeline.Digest.Bytes

/-! # A stream of random words

Random words are the key stream of ChaCha with twelve rounds: block after block of sixteen words,
each a function of the key and of the number of the block.
-/

namespace TablePipeline.ChaCha

/-- The sixteen words of a block. -/
abbrev Block := Vector UInt32 16

/-- The words turned to the left by some bits. -/
def rotateLeft (word : UInt32) (bits : UInt32) : UInt32 :=
  (word <<< bits) ||| (word >>> (32 - bits))

namespace Block

/-- The word at a place. -/
def word (block : Block) (place : Nat) : UInt32 :=
  block[place]?.getD 0

/-- Adds the word at one place to the word at another. -/
def add (block : Block) (target source : Nat) : Block :=
  block.setIfInBounds target (block.word target + block.word source)

/-- Changes the word at one place by the bits of the word at another, and turns it. -/
def turn (block : Block) (target source : Nat) (bits : UInt32) : Block :=
  block.setIfInBounds target (rotateLeft (block.word target ^^^ block.word source) bits)

end Block

/-- Mixes the words at four places of a block. -/
def quarterRound (a b c d : Nat) (block : Block) : Block :=
  let block := block.add a b
  let block := block.turn d a 16
  let block := block.add c d
  let block := block.turn b c 12
  let block := block.add a b
  let block := block.turn d a 8
  let block := block.add c d
  block.turn b c 7

/-- One round over the columns of a block and one over its diagonals. -/
def doubleRound (block : Block) : Block :=
  let block := quarterRound 0 4 8 12 block
  let block := quarterRound 1 5 9 13 block
  let block := quarterRound 2 6 10 14 block
  let block := quarterRound 3 7 11 15 block
  let block := quarterRound 0 5 10 15 block
  let block := quarterRound 1 6 11 12 block
  let block := quarterRound 2 7 8 13 block
  quarterRound 3 4 9 14 block

/-- Some double rounds. -/
def rounds : Nat → Block → Block
  | 0, block => block
  | count + 1, block => rounds count (doubleRound block)

/-- The block before its rounds: four constants, the key, the number of the block and two zeros. -/
def start (key : Vector UInt32 8) (number : UInt64) : Block :=
  let constants : Vector UInt32 4 := #v[0x61707865, 0x3320646e, 0x79622d32, 0x6b206574]
  constants ++ key ++
    #v[number.toUInt32, (number >>> 32).toUInt32, 0, 0]

/-- The block of a number in the key stream. -/
def block (key : Vector UInt32 8) (number : UInt64) : Block :=
  let initial := start key number
  (rounds 6 initial).zipWith (· + ·) initial

end TablePipeline.ChaCha

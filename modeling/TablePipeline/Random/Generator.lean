import TablePipeline.Random.ChaCha
import TablePipeline.Number.Position

/-! # Random values

A generator is a place in the stream of random words. Values are drawn from it one after another, so
equal seeds give equal values.
-/

namespace TablePipeline

/-- A place in a stream of random words. -/
structure Generator where
  key : Vector UInt32 8
  /-- The number of the next block. -/
  next : UInt64 := 0
  /-- The words left of the last block. -/
  words : List UInt32 := []

/-- Draws a value. -/
abbrev Drawing := StateM Generator

namespace Generator

/-- One step of the sequence that a seed is spread with. -/
def spread (state : UInt64) : UInt64 :=
  state * 6364136223846793005 + 11634580027462260723

/-- The word that a state of the sequence stands for. -/
def spreadWord (state : UInt64) : UInt32 :=
  let mixed := (((state >>> 18) ^^^ state) >>> 27).toUInt32
  let turn := (state >>> 59).toUInt32
  if turn = 0 then mixed else (mixed >>> turn) ||| (mixed <<< (32 - turn))

/-- The words that a seed is spread to. -/
def spreadWords (state : UInt64) : Nat → List UInt32
  | 0 => []
  | count + 1 => spreadWord (spread state) :: spreadWords (spread state) count

/-- The generator of a seed. -/
def ofSeed (seed : UInt64) : Generator where
  key := Vector.ofFn fun i => (spreadWords seed 8)[i.val]?.getD 0

/-- The next word. -/
def word : Drawing UInt32 := do
  let generator ← get
  match generator.words with
  | word :: rest =>
    set { generator with words := rest }
    return word
  | [] =>
    let block := (ChaCha.block generator.key generator.next).toList
    set { generator with next := generator.next + 1, words := block.drop 1 }
    return block.headD 0

/-- The next two words as one, the low half first. -/
def long : Drawing UInt64 := do
  let low ← word
  let high ← word
  return low.toUInt64 ||| (high.toUInt64 <<< 32)

/-- The number of values of two words. -/
def longs : Nat := 18446744073709551616

/-- A number below a positive bound: the high half of a random multiple of the bound, corrected with
a second one where the low half leaves its carry open. -/
def below (bound : UInt64) : Drawing UInt64 := do
  let product := (← long).toNat * bound.toNat
  let high := (product / longs).toUInt64
  let low := product % longs
  if low > longs - bound.toNat then
    let more := (← long).toNat * bound.toNat / longs
    return if low + more ≥ longs then high + 1 else high
  return high

/-- An integer between two ends, both included; the range must not be empty. -/
def between (low high : Int64) : Drawing Int64 := do
  let bound := (high - low + 1).toUInt64
  if bound = 0 then return (← long).toInt64
  return low + (← below bound).toInt64

/-- True with a probability below one. -/
def chance (probability : Float) : Drawing Bool := do
  return (← long) < (probability * 18446744073709551616.0).toUInt64

end Generator

end TablePipeline

import TablePipeline.Digest.Bytes

/-! # BLAKE3

The 32-byte BLAKE3 hash of a byte string. The input is cut into chunks of 1024 bytes, each chunk is
folded block by block into a node, and the nodes are joined in a binary tree whose left subtrees
hold the largest power of two of chunks that leaves the right one some input. Nothing here is
established about collisions; a digest is compared, never inverted.
-/

namespace TablePipeline.Blake3

/-- Eight words that stand for what was hashed so far. -/
abbrev Chaining := Vector UInt32 8

/-- One block of input as sixteen words, and also the state of the permutation. -/
abbrev Block := Vector UInt32 16

/-- The words every hash starts from. -/
def start : Chaining :=
  #v[0x6A09E667, 0xBB67AE85, 0x3C6EF372, 0xA54FF53A, 0x510E527F, 0x9B05688C, 0x1F83D9AB, 0x5BE0CD19]

/-- The marks that tell the uses of one compression apart. -/
def chunkStart : UInt32 := 1
@[inherit_doc chunkStart] def chunkEnd : UInt32 := 2
@[inherit_doc chunkStart] def parentNode : UInt32 := 4
@[inherit_doc chunkStart] def rootNode : UInt32 := 8

/-- Rotation of a word to the right. -/
def rotate (word : UInt32) (count : UInt32) : UInt32 :=
  (word >>> count) ||| (word <<< (32 - count))

/-- Mixes two words of input into four words of the state. -/
def mix (s : Block) (a b c d : Fin 16) (x y : UInt32) : Block :=
  let s := s.set a (s[a] + s[b] + x)
  let s := s.set d (rotate (s[d] ^^^ s[a]) 16)
  let s := s.set c (s[c] + s[d])
  let s := s.set b (rotate (s[b] ^^^ s[c]) 12)
  let s := s.set a (s[a] + s[b] + y)
  let s := s.set d (rotate (s[d] ^^^ s[a]) 8)
  let s := s.set c (s[c] + s[d])
  s.set b (rotate (s[b] ^^^ s[c]) 7)

/-- Mixes the columns of the state, and then its diagonals. -/
def round (s m : Block) : Block :=
  let s := mix s 0 4 8 12 m[0] m[1]
  let s := mix s 1 5 9 13 m[2] m[3]
  let s := mix s 2 6 10 14 m[4] m[5]
  let s := mix s 3 7 11 15 m[6] m[7]
  let s := mix s 0 5 10 15 m[8] m[9]
  let s := mix s 1 6 11 12 m[10] m[11]
  let s := mix s 2 7 8 13 m[12] m[13]
  mix s 3 4 9 14 m[14] m[15]

/-- The order in which a round sees the words of the round before it. -/
def permute (m : Block) : Block :=
  #v[m[2], m[6], m[3], m[10], m[7], m[0], m[4], m[13],
     m[1], m[11], m[12], m[5], m[9], m[14], m[15], m[8]]

/-- The given number of rounds, with the input words permuted between them. -/
def rounds : Nat → Block → Block → Block
  | 0, s, _ => s
  | count + 1, s, m => rounds count (round s m) (permute m)

/-- A compression that has not been run yet; a chunk or a parent ends in one. -/
structure Node where
  chaining : Chaining
  block : Block
  counter : UInt64
  length : UInt32
  marks : UInt32

/-- The first eight words that a node compresses to. -/
def Node.compress (node : Node) (marks : UInt32) : Chaining :=
  let h := node.chaining
  let state : Block :=
    #v[h[0], h[1], h[2], h[3], h[4], h[5], h[6], h[7],
       start[0], start[1], start[2], start[3],
       node.counter.toUInt32, (node.counter >>> 32).toUInt32, node.length, node.marks ||| marks]
  let final := rounds 7 state node.block
  #v[final[0] ^^^ final[8], final[1] ^^^ final[9], final[2] ^^^ final[10], final[3] ^^^ final[11],
     final[4] ^^^ final[12], final[5] ^^^ final[13], final[6] ^^^ final[14], final[7] ^^^ final[15]]

/-- The words that stand for a node inside the tree. -/
def Node.value (node : Node) : Chaining :=
  node.compress 0

/-- One block of at most 64 bytes, filled up with zeros. -/
def blockOf (bytes : Bytes) : Block :=
  let bytes := bytes.toArray
  Vector.ofFn fun i : Fin 16 =>
    (Bytes.toNat ((List.range 4).map fun j => bytes[4 * i.val + j]?.getD 0)).toUInt32

/-- Folds the blocks of a chunk; the last block stays open. -/
def chunkBlocks (counter : UInt64) (chaining : Chaining) (marks : UInt32) (bytes : Bytes) : Node :=
  let block := bytes.take 64
  let rest := bytes.drop 64
  if _more : 64 < bytes.length then
    let node : Node := ⟨chaining, blockOf block, counter, 64, marks⟩
    chunkBlocks counter node.value 0 rest
  else
    ⟨chaining, blockOf block, counter, block.length.toUInt32, marks ||| chunkEnd⟩
termination_by bytes.length
decreasing_by simp only [List.length_drop]; omega

/-- The node of one chunk. -/
def chunk (counter : UInt64) (bytes : Bytes) : Node :=
  chunkBlocks counter start chunkStart bytes

/-- The node above two subtrees. -/
def parent (left right : Chaining) : Node :=
  ⟨start, left ++ right, 0, 64, parentNode⟩

/-- The number of bytes in a chunk. -/
def chunkLength : Nat := 1024

/-- The number of bytes that go to the left of a tree over more than one chunk. -/
def leftLength (length : Nat) : Nat :=
  chunkLength * Nat.pow 2 ((length - 1) / chunkLength).log2

theorem leftLength_pos (length : Nat) : 0 < leftLength length :=
  Nat.mul_pos (by decide) (Nat.pow_pos (by decide))

theorem leftLength_lt {length : Nat} (large : chunkLength < length) :
    leftLength length < length := by
  have quotient : (length - 1) / chunkLength ≠ 0 := by
    have := (@Nat.div_pos_iff (length - 1) chunkLength).mpr ⟨by decide, by omega⟩
    omega
  have power : Nat.pow 2 ((length - 1) / chunkLength).log2 ≤ _ := Nat.log2_self_le quotient
  have product := Nat.mul_le_mul_left chunkLength power
  have whole := Nat.mul_div_le (length - 1) chunkLength
  simp only [leftLength]
  omega

/-- The tree over a byte string whose first chunk has the given number. -/
def tree (counter : Nat) (bytes : Bytes) : Node :=
  if _large : chunkLength < bytes.length then
    let left := bytes.take (leftLength bytes.length)
    let right := bytes.drop (leftLength bytes.length)
    parent (tree counter left).value
      (tree (counter + leftLength bytes.length / chunkLength) right).value
  else
    chunk counter.toUInt64 bytes
termination_by bytes.length
decreasing_by
  · have := leftLength_lt _large
    simp only [List.length_take]; omega
  · have := leftLength_pos bytes.length
    have : 0 < chunkLength := by decide
    simp only [List.length_drop]; omega

/-- The bytes of a word, the least significant first. -/
def wordBytes (word : UInt32) : Bytes :=
  Bytes.littleEndian 4 word.toNat

/-- The 32-byte hash of a byte string. -/
def hash (bytes : Bytes) : Bytes :=
  ((tree 0 bytes).compress rootNode).toList.flatMap wordBytes

end TablePipeline.Blake3

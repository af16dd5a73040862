/-!
# The hash function BLAKE3

The plain, unkeyed hash.  The input is cut into chunks of 1024 bytes and each chunk into blocks of
64 bytes; a chunk is hashed by compressing its blocks in a row, and the chunks are the leaves of a
binary tree whose inner nodes compress two chaining values.  The left subtree of an inner node is
the largest complete tree that leaves at least one byte to the right.

## Main definitions

* `Blake3.compress` : the compression function.
* `Blake3.Node` : an input of the compression function that may turn out to be the root.
* `Blake3.node` : the tree over a string of bytes.
* `Blake3.hash` : the first thirty-two bytes of output.
-/

namespace Eligibility

-- Powers of natural numbers are the core library's in every context.
attribute [local instance (100000)] instPowNat

namespace Blake3

/-- Eight words: a chaining value. -/
abbrev Chaining := Vector UInt32 8

/-- Sixteen words: a block of the message, or the state of a compression. -/
abbrev Words := Vector UInt32 16

/-- The initial chaining value. -/
def initial : Chaining :=
  #v[0x6A09E667, 0xBB67AE85, 0x3C6EF372, 0xA54FF53A, 0x510E527F, 0x9B05688C, 0x1F83D9AB, 0x5BE0CD19]

/-- The order in which a round takes the words of the previous round. -/
def schedule : Vector (Fin 16) 16 :=
  #v[2, 6, 3, 10, 7, 0, 4, 13, 1, 11, 12, 5, 9, 14, 15, 8]

/-- The flag of the first block of a chunk. -/
def chunkStart : UInt32 := 1

/-- The flag of the last block of a chunk. -/
def chunkEnd : UInt32 := 2

/-- The flag of an inner node. -/
def parent : UInt32 := 4

/-- The flag of the root. -/
def root : UInt32 := 8

/-- Rotation to the right by less than a word. -/
def rotateRight (x n : UInt32) : UInt32 :=
  (x >>> n) ||| (x <<< (32 - n))

/-- The quarter-round: four words of the state are mixed with two words of the message. -/
def mix (v : Words) (a b c d : Fin 16) (x y : UInt32) : Words :=
  let va := v[a] + v[b] + x
  let vd := rotateRight (v[d] ^^^ va) 16
  let vc := v[c] + vd
  let vb := rotateRight (v[b] ^^^ vc) 12
  let va := va + vb + y
  let vd := rotateRight (vd ^^^ va) 8
  let vc := vc + vd
  let vb := rotateRight (vb ^^^ vc) 7
  (((v.set a va).set b vb).set c vc).set d vd

/-- A round: the columns of the state, then its diagonals. -/
def round (v m : Words) : Words :=
  let v := mix v 0 4 8 12 m[0] m[1]
  let v := mix v 1 5 9 13 m[2] m[3]
  let v := mix v 2 6 10 14 m[4] m[5]
  let v := mix v 3 7 11 15 m[6] m[7]
  let v := mix v 0 5 10 15 m[8] m[9]
  let v := mix v 1 6 11 12 m[10] m[11]
  let v := mix v 2 7 8 13 m[12] m[13]
  mix v 3 4 9 14 m[14] m[15]

/-- The given number of rounds, each with the words of the message in another order. -/
def rounds : Nat → Words → Words → Words
  | 0, v, _ => v
  | n + 1, v, m => rounds n (round v m) (schedule.map fun i => m[i])

/-- An input of the compression function. -/
structure Node where
  /-- The chaining value that comes in. -/
  chaining : Chaining
  /-- The block. -/
  block : Words
  /-- The number of the chunk. -/
  counter : UInt64
  /-- How many bytes of the block are input. -/
  length : UInt32
  /-- What the block is. -/
  flags : UInt32

/-- The compression function: the chaining value that comes out, under additional flags. -/
def Node.compress (node : Node) (more : UInt32) : Chaining :=
  let h := node.chaining
  let v := rounds 7
    #v[h[0], h[1], h[2], h[3], h[4], h[5], h[6], h[7],
      initial[0], initial[1], initial[2], initial[3],
      node.counter.toUInt32, (node.counter >>> 32).toUInt32, node.length, node.flags ||| more]
    node.block
  Vector.ofFn fun i => v[i] ^^^ v[i.val + 8]

/-- The word of four bytes, the least significant one first; bytes that are missing are zero. -/
def word (bytes : List UInt8) (i : Nat) : UInt32 :=
  let byte (j : Nat) : UInt32 := (bytes.getD (4 * i + j) 0).toUInt32
  byte 0 ||| byte 1 <<< 8 ||| byte 2 <<< 16 ||| byte 3 <<< 24

/-- The sixteen words of a block. -/
def words (bytes : List UInt8) : Words :=
  Vector.ofFn fun i => word bytes i.val

/-- The bytes of a chaining value. -/
def bytesOf (h : Chaining) : List UInt8 :=
  h.toList.flatMap fun (w : UInt32) =>
    [w.toUInt8, (w >>> 8).toUInt8, (w >>> 16).toUInt8, (w >>> 24).toUInt8]

/-- The last block of a chunk, after the blocks before it have been compressed.  `start` is the flag
of the first block, and `count` has to bound the number of blocks. -/
def chunkFrom (counter : UInt64) : Nat → UInt32 → Chaining → List UInt8 → Node
  | 0, start, h, bytes => ⟨h, words bytes, counter, bytes.length.toUInt32, start ||| chunkEnd⟩
  | count + 1, start, h, bytes =>
    if bytes.length ≤ 64 then
      ⟨h, words bytes, counter, bytes.length.toUInt32, start ||| chunkEnd⟩
    else
      let h := Node.compress ⟨h, words (bytes.take 64), counter, 64, start⟩ 0
      chunkFrom counter count 0 h (bytes.drop 64)

/-- The node of a chunk, of which there are at most sixteen blocks. -/
def chunk (counter : Nat) (bytes : List UInt8) : Node :=
  chunkFrom counter.toUInt64 15 chunkStart initial bytes

/-- The node over two others. -/
def join (l r : Node) : Node :=
  ⟨initial, l.compress 0 ++ r.compress 0, 0, 64, parent⟩

/-- The node over at most `2 ^ height` chunks, of which the first has the number `counter`.  The
left half is split off complete as soon as something is left for the right half. -/
def node : Nat → Nat → List UInt8 → Node
  | 0, counter, bytes => chunk counter bytes
  | height + 1, counter, bytes =>
    let half := 1024 * 2 ^ height
    if bytes.length ≤ half then node height counter bytes
    else join (node height counter (bytes.take half))
      (node height (counter + 2 ^ height) (bytes.drop half))

/-- The hash of a string of bytes. -/
def hash (bytes : List UInt8) : List UInt8 :=
  bytesOf ((node ((bytes.length / 1024).log2 + 1) 0 bytes).compress root)

/-- A hash has thirty-two bytes. -/
@[simp] theorem length_hash (bytes : List UInt8) : (hash bytes).length = 32 := by
  simp only [hash, bytesOf, List.length_flatMap, List.length_cons, List.length_nil]
  rw [List.map_const', List.sum_replicate_nat, Vector.length_toList]

end Blake3

end Eligibility

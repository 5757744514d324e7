/-! A chunk of at most 1024 bytes is compressed block by block, and the chunks are the leaves of a binary
tree in which every left side is full. -/

namespace CausalWeave.Blake3

abbrev Words (count : Nat) := Vector UInt32 count

def initialValue : Words 8 :=
  #v[0x6A09E667, 0xBB67AE85, 0x3C6EF372, 0xA54FF53A, 0x510E527F, 0x9B05688C, 0x1F83D9AB, 0x5BE0CD19]

/-- Where each word of a block comes from in the block of the round before. -/
def permutation : Vector (Fin 16) 16 :=
  #v[2, 6, 3, 10, 7, 0, 4, 13, 1, 11, 12, 5, 9, 14, 15, 8]

def chunkStart : UInt32 := 1
def chunkEnd : UInt32 := 2
def parentNode : UInt32 := 4
def rootNode : UInt32 := 8

def blockLength : Nat := 64
def chunkLength : Nat := 1024

def rotateRight (word count : UInt32) : UInt32 :=
  (word >>> count) ||| (word <<< (32 - count))

def mix (state : Words 16) (a b c d : Fin 16) (x y : UInt32) : Words 16 :=
  let va := state[a] + state[b] + x
  let vd := rotateRight (state[d] ^^^ va) 16
  let vc := state[c] + vd
  let vb := rotateRight (state[b] ^^^ vc) 12
  let va := va + vb + y
  let vd := rotateRight (vd ^^^ va) 8
  let vc := vc + vd
  let vb := rotateRight (vb ^^^ vc) 7
  (((state.set a va).set b vb).set c vc).set d vd

/-- The columns of the state and then its diagonals, each mixed with two words of the block. -/
def round (state block : Words 16) : Words 16 :=
  let state := mix state 0 4 8 12 block[0] block[1]
  let state := mix state 1 5 9 13 block[2] block[3]
  let state := mix state 2 6 10 14 block[4] block[5]
  let state := mix state 3 7 11 15 block[6] block[7]
  let state := mix state 0 5 10 15 block[8] block[9]
  let state := mix state 1 6 11 12 block[10] block[11]
  let state := mix state 2 7 8 13 block[12] block[13]
  mix state 3 4 9 14 block[14] block[15]

def rounds : Nat → Words 16 → Words 16 → Words 16
  | 0, state, _ => state
  | count + 1, state, block =>
    rounds count (round state block) (permutation.map fun position => block[position])

/-- What is left to compress for a chunk or for a parent of two subtrees. -/
structure Output where
  chaining : Words 8
  block : Words 16
  counter : UInt64
  length : UInt32
  flags : UInt32

namespace Output

def compress (output : Output) : Words 8 :=
  let state := rounds 7
    (output.chaining ++ initialValue.take 4 ++
      #v[output.counter.toUInt32, (output.counter >>> 32).toUInt32, output.length, output.flags])
    output.block
  Vector.ofFn fun position : Fin 8 =>
    state[position.val] ^^^ state[position.val + 8]

def asRoot (output : Output) : Output :=
  { output with flags := output.flags ||| rootNode }

def join (left right : Output) : Output where
  chaining := initialValue
  block := left.compress ++ right.compress
  counter := 0
  length := 64
  flags := parentNode

end Output

def byteAt (input : ByteArray) (position stop : Nat) : UInt32 :=
  if bounded : position < input.size then
    if position < stop then input[position].toUInt32 else 0
  else 0

/-- The bytes from `start` up to `stop` as a block, with zeros after them. -/
def blockAt (input : ByteArray) (start stop : Nat) : Words 16 :=
  Vector.ofFn fun word : Fin 16 =>
    let first := start + 4 * word.val
    byteAt input first stop ||| (byteAt input (first + 1) stop <<< 8) |||
      (byteAt input (first + 2) stop <<< 16) ||| (byteAt input (first + 3) stop <<< 24)

/-- Compresses the blocks from `start` on, all but the last one of the chunk. -/
def chunkFrom (input : ByteArray) (counter : UInt64) (chaining : Words 8) (flags : UInt32)
    (start stop : Nat) : Output :=
  let last := stop - start ≤ blockLength
  let output : Output :=
    { chaining, block := blockAt input start stop, counter,
      length := UInt32.ofNat (min blockLength (stop - start)),
      flags := if last then flags ||| chunkEnd else flags }
  if stop - start ≤ blockLength then output
  else chunkFrom input counter output.compress 0 (start + blockLength) stop
termination_by stop - start
decreasing_by simp [blockLength] at *; omega

def chunk (input : ByteArray) (number : Nat) : Output :=
  let start := number * chunkLength
  chunkFrom input number.toUInt64 initialValue chunkStart start
    (min input.size (start + chunkLength))

/-- The tree over `count` chunks. The left side has the largest power of two that leaves chunks
for the right side. -/
def tree (input : ByteArray) (first count : Nat) : Output :=
  if count ≤ 1 then chunk input first
  else
    let left := Nat.pow 2 (count - 1).log2
    if left < count then
      (tree input first left).join (tree input (first + left) (count - left))
    else chunk input first
termination_by count
decreasing_by
  · assumption
  · have positive : 0 < left := Nat.two_pow_pos _
    omega

def hash (input : ByteArray) : List UInt8 :=
  let chunks := (input.size + chunkLength - 1) / chunkLength
  (tree input 0 chunks).asRoot.compress.toList.flatMap fun (word : UInt32) =>
    [word.toUInt8, (word >>> 8).toUInt8, (word >>> 16).toUInt8, (word >>> 24).toUInt8]

end CausalWeave.Blake3

/-!
# BLAKE3 digests

Stored programs are compared by the BLAKE3 digest of their text.  The input is
cut into chunks of 1024 bytes, each chunk is folded block by block, and the
chunks are joined by a binary tree whose left part is always as large a power
of two of chunks as fits.  Every node of the tree is one more call of the
compression function, and the root is marked by a flag of its own.
-/

namespace BlockStage

namespace Digest

/-- Eight words that one node of the tree passes to the next. -/
abbrev Chain := Vector UInt32 8

abbrev Block := Vector UInt32 16

/-- The chain that the first block of every chunk starts from. -/
def initialChain : Chain :=
  #v[0x6A09E667, 0xBB67AE85, 0x3C6EF372, 0xA54FF53A, 0x510E527F, 0x9B05688C, 0x1F83D9AB,
    0x5BE0CD19]

def rotateRight (word amount : UInt32) : UInt32 :=
  (word >>> amount) ||| (word <<< (32 - amount))

/-- Mixes two input words into one column or diagonal of the state. -/
def mix (state : Block) (a b c d : Fin 16) (first second : UInt32) : Block :=
  let a₁ := state[a] + state[b] + first
  let d₁ := rotateRight (state[d] ^^^ a₁) 16
  let c₁ := state[c] + d₁
  let b₁ := rotateRight (state[b] ^^^ c₁) 12
  let a₂ := a₁ + b₁ + second
  let d₂ := rotateRight (d₁ ^^^ a₂) 8
  let c₂ := c₁ + d₂
  let b₂ := rotateRight (b₁ ^^^ c₂) 7
  (((state.set a a₂).set b b₂).set c c₂).set d d₂

/-- One round: the four columns, then the four diagonals. -/
def round (state block : Block) : Block :=
  let state := mix state 0 4 8 12 block[0] block[1]
  let state := mix state 1 5 9 13 block[2] block[3]
  let state := mix state 2 6 10 14 block[4] block[5]
  let state := mix state 3 7 11 15 block[6] block[7]
  let state := mix state 0 5 10 15 block[8] block[9]
  let state := mix state 1 6 11 12 block[10] block[11]
  let state := mix state 2 7 8 13 block[12] block[13]
  mix state 3 4 9 14 block[14] block[15]

/-- The order in which the next round takes the input words. -/
def permute (block : Block) : Block :=
  #v[block[2], block[6], block[3], block[10], block[7], block[0], block[4], block[13], block[1],
    block[11], block[12], block[5], block[9], block[14], block[15], block[8]]

/-- Runs a number of rounds, permuting the input between them. -/
def rounds : Nat → Block → Block → Block
  | 0, state, _ => state
  | count + 1, state, block => rounds count (round state block) (permute block)

/-- One node of the tree before it is compressed. -/
structure Node where
  chain : Chain
  block : Block
  counter : UInt64
  length : UInt32
  flags : UInt32

def chunkStart : UInt32 := 1

def chunkEnd : UInt32 := 2

def parent : UInt32 := 4

def root : UInt32 := 8

def Node.compress (node : Node) : Chain :=
  let chain := node.chain
  let start : Block :=
    #v[chain[0], chain[1], chain[2], chain[3], chain[4], chain[5], chain[6], chain[7],
      initialChain[0], initialChain[1], initialChain[2], initialChain[3],
      node.counter.toUInt32, (node.counter >>> 32).toUInt32, node.length, node.flags]
  let state := rounds 7 start node.block
  #v[state[0] ^^^ state[8], state[1] ^^^ state[9], state[2] ^^^ state[10],
    state[3] ^^^ state[11], state[4] ^^^ state[12], state[5] ^^^ state[13],
    state[6] ^^^ state[14], state[7] ^^^ state[15]]

def byteAt (bytes : ByteArray) (finish position : Nat) : UInt32 :=
  if position < finish then
    if inside : position < bytes.size then bytes[position].toUInt32 else 0
  else 0

/-- The little-endian word at a position of an input that ends at `finish`. -/
def wordAt (bytes : ByteArray) (finish position : Nat) : UInt32 :=
  byteAt bytes finish position ||| (byteAt bytes finish (position + 1) <<< 8) |||
    (byteAt bytes finish (position + 2) <<< 16) ||| (byteAt bytes finish (position + 3) <<< 24)

def blockAt (bytes : ByteArray) (finish position : Nat) : Block :=
  Vector.ofFn fun word => wordAt bytes finish (position + 4 * word.val)

/-- The last node of the chunk from `start` to `finish`, after `left` more
blocks in front of it have been folded into the chain. -/
def chunkNode (bytes : ByteArray) (finish : Nat) (counter : UInt64) :
    Nat → Nat → Bool → Chain → Node
  | 0, position, first, chain =>
      { chain
        block := blockAt bytes finish position
        counter
        length := UInt32.ofNat (finish - position)
        flags := (if first then chunkStart else 0) ||| chunkEnd }
  | left + 1, position, first, chain =>
      let node : Node :=
        { chain
          block := blockAt bytes finish position
          counter
          length := 64
          flags := if first then chunkStart else 0 }
      chunkNode bytes finish counter left (position + 64) false node.compress

def joinNode (left right : Chain) : Node where
  chain := initialChain
  block := left ++ right
  counter := 0
  length := 64
  flags := parent

/-- How many bytes of a long input belong to the left subtree. -/
def leftLength (length : Nat) : Nat := 1024 <<< ((length - 1) / 1024).log2

theorem leftLength_lt {length : Nat} (long : 1024 < length) : leftLength length < length := by
  rw [leftLength, Nat.shiftLeft_eq]
  have positive : (length - 1) / 1024 ≠ 0 := by omega
  have power := Nat.log2_self_le positive
  omega

theorem leftLength_pos (length : Nat) : 0 < leftLength length := by
  rw [leftLength, Nat.shiftLeft_eq]
  have := Nat.two_pow_pos ((length - 1) / 1024).log2
  omega

/-- The node of the subtree over `length` bytes from `start`. -/
def treeNode (bytes : ByteArray) (start length : Nat) : Node :=
  if long : 1024 < length then
    joinNode
      (treeNode bytes start (leftLength length)).compress
      (treeNode bytes (start + leftLength length) (length - leftLength length)).compress
  else
    chunkNode bytes (start + length) (UInt64.ofNat (start / 1024)) ((length - 1) / 64) start true
      initialChain
termination_by length
decreasing_by
  · exact leftLength_lt long
  · exact Nat.sub_lt (Nat.lt_trans (by decide) long) (leftLength_pos length)

def hexByte (byte : UInt32) : List Char :=
  [Nat.digitChar (byte.toNat / 16), Nat.digitChar (byte.toNat % 16)]

/-- The hexadecimal digits of a word, lowest byte first. -/
def hexWord (word : UInt32) : List Char :=
  hexByte (word &&& 0xFF) ++ hexByte ((word >>> 8) &&& 0xFF) ++
    hexByte ((word >>> 16) &&& 0xFF) ++ hexByte ((word >>> 24) &&& 0xFF)

/-- The digest of some bytes: what the root of their tree gives. -/
def ofBytes (bytes : ByteArray) : Chain :=
  let node := treeNode bytes 0 bytes.size
  { node with flags := node.flags ||| root }.compress

def hex (digest : Chain) : String := String.ofList (digest.toList.flatMap hexWord)

/-- The digest of a text, taken over its UTF-8 bytes. -/
def rawOfText (content : String) : Chain := ofBytes content.toUTF8

def ofText (content : String) : String := hex (rawOfText content)

end Digest

end BlockStage

import Rollout.Text.Basic

/-!
# BLAKE3

The unkeyed hash of a text, as 64 hexadecimal digits.

* `compress`: seven rounds over sixteen words, then the feed-forward.
* `chunkNode`: a chunk of at most 1024 bytes, hashed block by block.
* `merge`: chunks are paired level by level until one node is left, which is the root.
-/

namespace Rollout.Blake3

/-- Eight words, what one node hands to the next. -/
abbrev Chain := Vector UInt32 8

/-- Sixteen words, a block or a state. -/
abbrev Block := Vector UInt32 16

/-- The first words of the fractional parts of the square roots of the first eight primes. -/
def start : Chain :=
  #v[0x6A09E667, 0xBB67AE85, 0x3C6EF372, 0xA54FF53A, 0x510E527F, 0x9B05688C, 0x1F83D9AB, 0x5BE0CD19]

/-- The node is the first block of a chunk. -/
def chunkStart : UInt32 := 1
/-- The node is the last block of a chunk. -/
def chunkEnd : UInt32 := 2
/-- The node joins two others. -/
def parent : UInt32 := 4
/-- The node is the root. -/
def root : UInt32 := 8

/-- A word with its bits turned to the right. -/
def rotateRight (w : UInt32) (n : UInt32) : UInt32 := (w >>> n) ||| (w <<< (32 - n))

/-- Mixes two message words into four words of the state. -/
def quarter (s : Block) (a b c d : Fin 16) (x y : UInt32) : Block :=
  let s := s.set a (s[a] + s[b] + x)
  let s := s.set d (rotateRight (s[d] ^^^ s[a]) 16)
  let s := s.set c (s[c] + s[d])
  let s := s.set b (rotateRight (s[b] ^^^ s[c]) 12)
  let s := s.set a (s[a] + s[b] + y)
  let s := s.set d (rotateRight (s[d] ^^^ s[a]) 8)
  let s := s.set c (s[c] + s[d])
  s.set b (rotateRight (s[b] ^^^ s[c]) 7)

/-- Mixes a block into the state, first by columns and then by diagonals. -/
def mixRound (s m : Block) : Block :=
  let s := quarter s 0 4 8 12 m[0] m[1]
  let s := quarter s 1 5 9 13 m[2] m[3]
  let s := quarter s 2 6 10 14 m[4] m[5]
  let s := quarter s 3 7 11 15 m[6] m[7]
  let s := quarter s 0 5 10 15 m[8] m[9]
  let s := quarter s 1 6 11 12 m[10] m[11]
  let s := quarter s 2 7 8 13 m[12] m[13]
  quarter s 3 4 9 14 m[14] m[15]

/-- The message words in the order of the next round. -/
def permute (m : Block) : Block :=
  #v[m[2], m[6], m[3], m[10], m[7], m[0], m[4], m[13],
     m[1], m[11], m[12], m[5], m[9], m[14], m[15], m[8]]

/-- Some rounds, the message permuted between them. -/
def mixRounds : Nat → Block → Block → Block
  | 0, s, _ => s
  | n + 1, s, m => mixRounds n (mixRound s m) (permute m)

/-- What a node is hashed from. -/
structure Node where
  /-- The words handed on to this node. -/
  chain : Chain
  /-- The message. -/
  block : Block
  /-- The number of the chunk, zero above the chunks. -/
  counter : UInt64
  /-- The number of message bytes. -/
  length : UInt32
  /-- What kind of node this is. -/
  flags : UInt32

/-- The words that a node hands on. -/
def compress (n : Node) : Chain :=
  let s := mixRounds 7
    #v[n.chain[0], n.chain[1], n.chain[2], n.chain[3], n.chain[4], n.chain[5], n.chain[6],
       n.chain[7], start[0], start[1], start[2], start[3], n.counter.toUInt32,
       (n.counter >>> 32).toUInt32, n.length, n.flags] n.block
  Vector.ofFn fun i => s[i.val] ^^^ s[i.val + 8]

/-- The word of four bytes, the lowest first. -/
def wordOf (bytes : List UInt8) : UInt32 :=
  bytes.foldr (fun b w => w * 256 + b.toUInt32) 0

/-- The block of at most 64 bytes, filled up with zeros. -/
def blockOf (bytes : List UInt8) : Block :=
  Vector.ofFn fun i => wordOf ((bytes.drop (4 * i.val)).take 4)

/-- A list cut into pieces of `n` items, the last of which may be shorter; at least one piece. -/
def pieces {α : Type} (n : Nat) (l : List α) : List (List α) :=
  if n = 0 ∨ l.length ≤ n then [l] else l.take n :: pieces n (l.drop n)
termination_by l.length
decreasing_by
  next h =>
    rw [List.length_drop]
    omega

/-- The last node of a chunk, whose earlier blocks have been hashed. -/
def chunkTail (counter : UInt64) (chain : Chain) (flags : UInt32) : List (List UInt8) → Node
  | [] => ⟨chain, blockOf [], counter, 0, flags ||| chunkEnd⟩
  | [last] => ⟨chain, blockOf last, counter, last.length.toUInt32, flags ||| chunkEnd⟩
  | bytes :: rest => chunkTail counter (compress ⟨chain, blockOf bytes, counter, 64, flags⟩) 0 rest

/-- The last node of a chunk. -/
def chunkNode (counter : Nat) (bytes : List UInt8) : Node :=
  chunkTail counter.toUInt64 start chunkStart (pieces 64 bytes)

/-- The node that joins two others. -/
def join (left right : Node) : Node :=
  ⟨start, (compress left ++ compress right).cast rfl, 0, 64, parent⟩

/-- One level up: neighbours are joined, and a last node without a neighbour stays. -/
def pairUp : List Node → List Node
  | left :: right :: rest => join left right :: pairUp rest
  | rest => rest

theorem length_pairUp_le (nodes : List Node) : (pairUp nodes).length ≤ nodes.length := by
  fun_induction pairUp nodes with
  | case1 _ _ _ ih => simp; omega
  | case2 => exact Nat.le_refl _

/-- The root over some nodes, beginning with `first`. -/
def merge (first : Node) : List Node → Node
  | [] => first
  | second :: rest => merge (join first second) (pairUp rest)
termination_by rest => rest.length
decreasing_by exact Nat.lt_succ_of_le (length_pairUp_le rest)

/-- The words of the hash of some bytes. -/
def digest (bytes : List UInt8) : Chain :=
  let nodes := (pieces 1024 bytes).zipIdx.map fun (chunk, i) => chunkNode i chunk
  let top := match nodes with
    | [] => chunkNode 0 []
    | first :: rest => merge first rest
  compress { top with counter := 0, flags := top.flags ||| root }

/-- The digits of a word, its lowest byte first. -/
def hexWord (w : UInt32) : List Char :=
  ([0, 8, 16, 24] : List UInt32).flatMap fun shift => Text.hex 2 ((w >>> shift) % 256).toNat

/-- The hash of a text, in hexadecimal digits. -/
def hash (text : String) : String :=
  String.ofList ((digest text.toUTF8.toList).toList.flatMap hexWord)

end Rollout.Blake3

import Lineage.Text.Utf8

/-!
# BLAKE3

The hash of a byte string, in 32 bytes.  The bytes are cut into chunks of 1024, which are the leaves of a
binary tree whose left subtrees are complete; the root is compressed with a flag of its own.
-/

namespace Lineage.Blake3

/-- Eight words that carry the state from block to block and from node to node. -/
abbrev Chain := Vector UInt32 8

abbrev Block := Vector UInt32 16

def iv : Chain :=
  #v[0x6A09E667, 0xBB67AE85, 0x3C6EF372, 0xA54FF53A, 0x510E527F, 0x9B05688C, 0x1F83D9AB, 0x5BE0CD19]

def chunkStart : UInt32 := 1

def chunkEnd : UInt32 := 2

def parentFlag : UInt32 := 4

def rootFlag : UInt32 := 8

def rotateRight (w : UInt32) (n : UInt32) : UInt32 :=
  (w >>> n) ||| (w <<< (32 - n))

/-- Mixes two words of the message into four words of the state. -/
def mix (v : Block) (a b c d : Fin 16) (x y : UInt32) : Block :=
  let va := v[a] + v[b] + x
  let vd := rotateRight (v[d] ^^^ va) 16
  let vc := v[c] + vd
  let vb := rotateRight (v[b] ^^^ vc) 12
  let va := va + vb + y
  let vd := rotateRight (vd ^^^ va) 8
  let vc := vc + vd
  let vb := rotateRight (vb ^^^ vc) 7
  (((v.set a va).set b vb).set c vc).set d vd

/-- Mixes the columns and then the diagonals. -/
def round (m v : Block) : Block :=
  let v := mix v 0 4 8 12 m[0] m[1]
  let v := mix v 1 5 9 13 m[2] m[3]
  let v := mix v 2 6 10 14 m[4] m[5]
  let v := mix v 3 7 11 15 m[6] m[7]
  let v := mix v 0 5 10 15 m[8] m[9]
  let v := mix v 1 6 11 12 m[10] m[11]
  let v := mix v 2 7 8 13 m[12] m[13]
  mix v 3 4 9 14 m[14] m[15]

/-- The order in which the next round takes the words of a message. -/
def permute (m : Block) : Block :=
  #v[m[2], m[6], m[3], m[10], m[7], m[0], m[4], m[13], m[1], m[11], m[12], m[5], m[9], m[14], m[15], m[8]]

def rounds : Nat → Block → Block → Block
  | 0, _, v => v
  | n + 1, m, v => rounds n (permute m) (round m v)

/-- A block that is ready for compression. -/
structure Node where
  chain : Chain
  block : Block
  counter : Nat
  size : Nat
  flags : UInt32

def Node.compress (n : Node) : Chain :=
  let v : Block :=
    #v[n.chain[0], n.chain[1], n.chain[2], n.chain[3], n.chain[4], n.chain[5], n.chain[6], n.chain[7],
      iv[0], iv[1], iv[2], iv[3],
      UInt32.ofNat n.counter, UInt32.ofNat (n.counter >>> 32), UInt32.ofNat n.size, n.flags]
  let v := rounds 7 n.block v
  Vector.ofFn fun i : Fin 8 => v[i.val] ^^^ v[i.val + 8]

/-- Pieces of a given size, the last of which may be shorter.  No bytes are one empty piece. -/
def pieces (size : Nat) (positive : 0 < size) (bytes : Bytes) : List Bytes :=
  match _h : bytes.drop size with
  | [] => [bytes]
  | b :: rest => bytes.take size :: pieces size positive (b :: rest)
termination_by bytes.length
decreasing_by
  rw [← _h, List.length_drop]
  have : bytes.drop size ≠ [] := by simp [_h]
  have : size < bytes.length := by simpa using this
  omega

def word (a b c d : UInt8) : UInt32 :=
  a.toUInt32 ||| (b.toUInt32 <<< 8) ||| (c.toUInt32 <<< 16) ||| (d.toUInt32 <<< 24)

/-- The words of a block, filled up with zeros. -/
def blockOf (bytes : Bytes) : Block :=
  let all := bytes.toArray
  let byte (i : Nat) : UInt8 := all[i]?.getD 0
  Vector.ofFn fun i : Fin 16 => word (byte (4 * i)) (byte (4 * i + 1)) (byte (4 * i + 2)) (byte (4 * i + 3))

/-- The blocks of a chunk, each compressed into the chain of the next; the last is left to be compressed. -/
def chunkFrom (counter : Nat) (chain : Chain) (flags : UInt32) : List Bytes → Node
  | [] => ⟨chain, blockOf [], counter, 0, flags ||| chunkEnd⟩
  | [last] => ⟨chain, blockOf last, counter, last.length, flags ||| chunkEnd⟩
  | b :: rest => chunkFrom counter (Node.compress ⟨chain, blockOf b, counter, b.length, flags⟩) 0 rest

def chunk (bytes : Bytes) (counter : Nat) : Node :=
  chunkFrom counter iv chunkStart (pieces 64 (by decide) bytes)

def parent (left right : Chain) : Node :=
  ⟨iv, left ++ right, 0, 64, parentFlag⟩

/-- The number of leaves on the left: the largest power of two that leaves some for the right. -/
def leftLeaves (n : Nat) : Nat :=
  Nat.pow 2 (n - 1).log2

theorem leftLeaves_pos (n : Nat) : 0 < leftLeaves n :=
  Nat.two_pow_pos _

theorem leftLeaves_lt {n : Nat} (h : 1 < n) : leftLeaves n < n := by
  have : leftLeaves n ≤ n - 1 := Nat.log2_self_le (show n - 1 ≠ 0 by omega)
  omega

/-- The tree over a list of leaves. -/
def tree (leaves : List Node) : Node :=
  if _ : 1 < leaves.length then
    let k := leftLeaves leaves.length
    parent (tree (leaves.take k)).compress (tree (leaves.drop k)).compress
  else leaves.headD (chunk [] 0)
termination_by leaves.length
decreasing_by
  · have := leftLeaves_lt ‹_›
    simp only [List.length_take]; omega
  · have := leftLeaves_pos leaves.length
    simp only [List.length_drop]; omega

def hashWords (bytes : Bytes) : Chain :=
  let leaves := (pieces 1024 (by decide) bytes).zipIdx.map fun (b, i) => chunk b i
  let root := tree leaves
  { root with flags := root.flags ||| rootFlag }.compress

def hash (bytes : Bytes) : Vector UInt8 32 :=
  let words := hashWords bytes
  Vector.ofFn fun i : Fin 32 => (words[i.val / 4] >>> (8 * UInt32.ofNat (i % 4))).toUInt8

end Lineage.Blake3

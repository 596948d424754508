import RemoteScreen.Octets

/-!
The BLAKE3 digest of a run of octets, as far as its first block of output goes, and the checksum
taken from it.

The input is cut into chunks of 1024 octets, each worked through in blocks of 64. The chunks are the
leaves of a binary tree whose left subtrees are as large as a power of two can make them, and each
inner node digests the chaining values of its two children.
-/

namespace RemoteScreen.Digest

structure Row where
  a : UInt32
  b : UInt32
  c : UInt32
  d : UInt32
deriving DecidableEq, Repr

namespace Row

def zipWith (f : UInt32 → UInt32 → UInt32) (r s : Row) : Row :=
  ⟨f r.a s.a, f r.b s.b, f r.c s.c, f r.d s.d⟩

def add (r s : Row) : Row :=
  zipWith (· + ·) r s

def xor (r s : Row) : Row :=
  zipWith (· ^^^ ·) r s

-- Turns every word to the right by `count` bits.
def turn (count : UInt32) (r : Row) : Row :=
  let f := fun w : UInt32 => (w >>> count) ||| (w <<< (32 - count))
  ⟨f r.a, f r.b, f r.c, f r.d⟩

-- Moves each word one place to the left, the first to the end.
def rotate (r : Row) : Row :=
  ⟨r.b, r.c, r.d, r.a⟩

end Row

-- What stands for a chunk or a subtree in the node above it.
structure Chaining where
  low : Row
  high : Row
deriving DecidableEq, Repr

def initial : Chaining :=
  ⟨⟨0x6a09e667, 0xbb67ae85, 0x3c6ef372, 0xa54ff53a⟩, ⟨0x510e527f, 0x9b05688c, 0x1f83d9ab, 0x5be0cd19⟩⟩

abbrev Block := Vector UInt32 16

-- Where each word of a block comes from in the next round.
def schedule : Vector (Fin 16) 16 :=
  #v[2, 6, 3, 10, 7, 0, 4, 13, 1, 11, 12, 5, 9, 14, 15, 8]

def Block.permute (m : Block) : Block :=
  schedule.map fun i => m[i]

structure State where
  p : Row
  q : Row
  r : Row
  s : Row

-- Works two rows of block words into every column.
def State.mix (t : State) (x y : Row) : State :=
  let p := (t.p.add t.q).add x
  let s := (t.s.xor p).turn 16
  let r := t.r.add s
  let q := (t.q.xor r).turn 12
  let p := (p.add q).add y
  let s := (s.xor p).turn 8
  let r := r.add s
  let q := (q.xor r).turn 7
  ⟨p, q, r, s⟩

-- Slants the rows, so that columns become diagonals.
def State.slant (t : State) : State :=
  ⟨t.p, t.q.rotate, t.r.rotate.rotate, t.s.rotate.rotate.rotate⟩

def State.straighten (t : State) : State :=
  ⟨t.p, t.q.rotate.rotate.rotate, t.r.rotate.rotate, t.s.rotate⟩

def State.round (t : State) (m : Block) : State :=
  let columns := t.mix ⟨m[0], m[2], m[4], m[6]⟩ ⟨m[1], m[3], m[5], m[7]⟩
  (columns.slant.mix ⟨m[8], m[10], m[12], m[14]⟩ ⟨m[9], m[11], m[13], m[15]⟩).straighten

def State.rounds : Nat → State → Block → State
  | 0, t, _ => t
  | n + 1, t, m => rounds n (t.round m) m.permute

-- What a block is in its chunk and in the tree.
structure Flags where
  chunkStart : Bool := false
  chunkEnd : Bool := false
  parent : Bool := false
  root : Bool := false

def Flags.word (f : Flags) : UInt32 :=
  (if f.chunkStart then 1 else 0) + (if f.chunkEnd then 2 else 0) + (if f.parent then 4 else 0)
    + (if f.root then 8 else 0)

-- Works a block of `length` octets into a chaining value.
def compress (value : Chaining) (block : Block) (counter : UInt64) (length : UInt32)
    (flags : Flags) : Chaining :=
  let start : State :=
    ⟨value.low, value.high, initial.low,
      ⟨counter.toUInt32, (counter >>> 32).toUInt32, length, flags.word⟩⟩
  let t := start.rounds 7 block
  ⟨t.p.xor t.r, t.q.xor t.s⟩

-- The word whose octets stand from `start` on, least significant first; there are zeros past the
-- end.
def wordAt (octets : Array UInt8) (start : Nat) : UInt32 :=
  let octet := fun i => (octets.getD (start + i) 0).toUInt32
  octet 0 ||| (octet 1 <<< 8) ||| (octet 2 <<< 16) ||| (octet 3 <<< 24)

def blockOf (octets : Octets) : Block :=
  let octets := octets.toArray
  Vector.ofFn fun i => wordAt octets (4 * i.val)

def chunkFrom (counter : UInt64) (root first : Bool) (value : Chaining) (octets : Octets) :
    Chaining :=
  if _h : octets.length ≤ 64 then
    compress value (blockOf octets) counter (UInt32.ofNat octets.length)
      { chunkStart := first, chunkEnd := true, root }
  else
    chunkFrom counter root false
      (compress value (blockOf (octets.take 64)) counter 64 { chunkStart := first })
      (octets.drop 64)
termination_by octets.length
decreasing_by simp; omega

def chunkLength : Nat := 1024

-- Octets of the left subtree of an input longer than one chunk: the largest power of two of chunks
-- that leaves something over.
def leftLength (length : Nat) : Nat :=
  chunkLength <<< Nat.log2 ((length - 1) / chunkLength)

theorem leftLength_pos (length : Nat) : 0 < leftLength length := by
  rw [leftLength, Nat.shiftLeft_eq]
  exact Nat.mul_pos (by decide) (Nat.two_pow_pos _)

theorem leftLength_lt {length : Nat} (h : chunkLength < length) : leftLength length < length := by
  have hk : (length - 1) / chunkLength ≠ 0 := by
    simp [chunkLength] at h ⊢
    omega
  have hp := Nat.log2_self_le hk
  have hm := Nat.mul_div_le (length - 1) chunkLength
  have := Nat.mul_le_mul_left chunkLength hp
  rw [leftLength, Nat.shiftLeft_eq]
  omega

def blockOfPair (left right : Chaining) : Block :=
  #v[left.low.a, left.low.b, left.low.c, left.low.d,
    left.high.a, left.high.b, left.high.c, left.high.d,
    right.low.a, right.low.b, right.low.c, right.low.d,
    right.high.a, right.high.b, right.high.c, right.high.d]

-- Digests the subtree over `octets`, whose first chunk has the given number.
def subtree (counter : UInt64) (root : Bool) (octets : Octets) : Chaining :=
  if _h : octets.length ≤ chunkLength then chunkFrom counter root true initial octets
  else
    let n := leftLength octets.length
    let left := subtree counter false (octets.take n)
    let right := subtree (counter + UInt64.ofNat (n / chunkLength)) false (octets.drop n)
    compress initial (blockOfPair left right) 0 64 { parent := true, root }
termination_by octets.length
decreasing_by
  all_goals
    have hlt := leftLength_lt (Nat.lt_of_not_le _h)
    have hpos := leftLength_pos octets.length
    simp
    omega

end RemoteScreen.Digest

namespace RemoteScreen

-- The first four octets of the digest, read with the least significant first. Equal regions have
-- equal checksums.
def checksum (octets : Octets) : UInt32 :=
  (Digest.subtree 0 true octets).low.a

end RemoteScreen

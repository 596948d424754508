import RemoteScreen.Display

/-!
Chunks of a screen: whole rows of cells, with the shape of the screen and the place they go to.
-/

namespace RemoteScreen

def chunkHeaderLength : Nat := 8

-- Shape of the screen, its cursor, and the place of a chunk in it.
structure ChunkHeader where
  rows : UInt8
  cols : UInt8
  cursorRow : UInt8
  cursorCol : UInt8
  -- Position of the first cell octet in the screen.
  start : UInt16
  count : UInt16
deriving DecidableEq, Repr, Inhabited

namespace ChunkHeader

def encode (h : ChunkHeader) : Octets :=
  h.rows :: h.cols :: h.cursorRow :: h.cursorCol ::
    (Octets.ofWord16 h.start ++ Octets.ofWord16 h.count)

def take? : Octets → Option (ChunkHeader × Octets)
  | rows :: cols :: cursorRow :: cursorCol :: s₁ :: s₀ :: c₁ :: c₀ :: rest =>
    some (⟨rows, cols, cursorRow, cursorCol, Octets.word16 s₁ s₀, Octets.word16 c₁ c₀⟩, rest)
  | _ => none

-- Where the chunk begins and where it should end.
def range (h : ChunkHeader) : Nat × Nat :=
  (h.start.toNat, h.start.toNat + h.count.toNat)

@[simp]
theorem take?_encode_append (h : ChunkHeader) (rest : Octets) :
    take? (h.encode ++ rest) = some (h, rest) := by
  simp only [encode, Octets.ofWord16, List.cons_append, List.nil_append, take?,
    Octets.word16_ofWord16]

end ChunkHeader

structure Chunk where
  header : ChunkHeader
  cells : Octets
deriving DecidableEq, Repr

namespace Chunk

-- Reads a chunk; it has no more cells than it counts.
def parse (payload : Octets) : Except Fault Chunk :=
  match ChunkHeader.take? payload with
  | some (header, body) => .ok ⟨header, body.take header.count.toNat⟩
  | none => .error (.tooShort chunkHeaderLength payload.length)

def encode (c : Chunk) : Octets :=
  c.header.encode ++ c.cells

end Chunk

end RemoteScreen

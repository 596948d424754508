import RemoteScreen.Chunk

/-!
A viewer's copy of a screen, rebuilt from the chunks that arrive.

A chunk of another shape blanks the copy and takes over the shape. Shape and cursor are taken over
before the place of the cells is checked, so a chunk that is refused may still change them.
-/

namespace RemoteScreen

structure Replica where
  rows : UInt8 := 0
  cols : UInt8 := 0
  cursorRow : UInt8 := 0
  cursorCol : UInt8 := 0
  cells : Octets := []
deriving DecidableEq, Repr, Inhabited

namespace Replica

-- Takes over a shape; a new one blanks the copy.
def reshape (r : Replica) (rows cols : UInt8) : Replica :=
  if rows = r.rows ∧ cols = r.cols then r
  else { r with rows, cols, cells := Octets.zeros (rows.toNat * cols.toNat * cellWidth) }

-- Puts the cells of a chunk in their place: where they begin and end, or the fault, and the copy
-- then.
def apply (r : Replica) (chunk : Chunk) : Except Fault (Nat × Nat) × Replica :=
  let h := chunk.header
  let r := { r.reshape h.rows h.cols with cursorRow := h.cursorRow, cursorCol := h.cursorCol }
  let start := h.start.toNat
  let stop := start + chunk.cells.length
  if r.cells.length < stop then (.error (.payloadTooLarge stop r.cells.length), r)
  else (.ok (start, stop), { r with cells := r.cells.overwrite start chunk.cells })

-- Character and attribute at a place inside the screen.
def cell? (r : Replica) (row col : UInt8) : Option (UInt8 × UInt8) :=
  if row < r.rows ∧ col < r.cols then
    match r.cells.drop ((row.toNat * r.cols.toNat + col.toNat) * cellWidth) with
    | character :: colour :: _ => some (character, colour)
    | _ => none
  else none

-- Octets outside printable ASCII are drawn as blanks.
def glyph (o : UInt8) : Char :=
  if 0x20 ≤ o ∧ o ≤ 0x7e then Char.ofNat o.toNat else ' '

-- The characters of the whole cells in a run of octets.
def glyphs : Octets → List Char
  | character :: _ :: rest => glyph character :: glyphs rest
  | _ => []

-- The lines in a run of octets, each `width` octets long but perhaps the last.
def linesOf (width : Nat) (octets : Octets) : List (List Char) :=
  if _h : octets = [] ∨ width = 0 then []
  else glyphs (octets.take width) :: linesOf width (octets.drop width)
termination_by octets.length
decreasing_by
  simp only [not_or] at _h
  have := List.length_pos_iff.mpr _h.1
  simp
  omega

def lines (r : Replica) : List (List Char) :=
  linesOf (max (r.cols.toNat * cellWidth) 1) r.cells

end Replica

end RemoteScreen

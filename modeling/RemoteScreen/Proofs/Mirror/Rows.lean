import RemoteScreen.Chunk
import RemoteScreen.Screen.Basic

namespace RemoteScreen

namespace DisplayState

-- A region that is not empty and whose octets a chunk can place.
structure Streamable (s : DisplayState) : Prop where
  rows   : s.rows ≠ 0
  cols   : s.cols ≠ 0
  region : s.regionLength ≤ 65535

variable {s : DisplayState}

theorem toNat_pos {n : UInt8} (h : n ≠ 0) : 0 < n.toNat :=
  Nat.pos_of_ne_zero fun hn => h <| UInt8.toNat_inj.mp hn

theorem Streamable.rows_pos (h : s.Streamable) : 0 < s.rows.toNat :=
  toNat_pos h.rows

theorem rowLength_pos (h : s.cols ≠ 0) : 0 < s.rowLength :=
  Nat.mul_pos (toNat_pos h) (by decide)

theorem rowLength_le (s : DisplayState) : s.rowLength ≤ 255 * cellWidth :=
  Nat.mul_le_mul_right _ (Nat.le_of_lt_succ s.cols.toNat_lt)

theorem stretch_le {first rows : Nat} (h : first + rows ≤ s.rows.toNat) :
    first * s.rowLength + rows * s.rowLength ≤ s.regionLength := by
  rw [← Nat.add_mul]
  exact Nat.mul_le_mul_right _ h

end DisplayState

namespace Display

-- The display shows `cells`: what is read from within its region are these octets.
structure Shows (d : Display) (cells : Octets) : Prop where
  fills  : d.Fills
  length : cells.length = d.state.regionLength
  read   : ∀ start count, start + count ≤ cells.length →
    d.read start count = (cells.drop start).take count

variable {d : Display} {cells : Octets} {first rows : Nat}

-- The chunk of `rows` rows from `first` on.
def chunk (d : Display) (first rows : Nat) : Chunk where
  header :=
    { rows := d.state.rows
      cols := d.state.cols
      cursorRow := d.state.cursorRow
      cursorCol := d.state.cursorCol
      start := UInt16.ofNat (first * d.state.rowLength)
      count := UInt16.ofNat (rows * d.state.rowLength) }
  cells :=
    (d.read (first * d.state.rowLength) (rows * d.state.rowLength)).take
      (rows * d.state.rowLength)

@[simp]
theorem rows_chunk (d : Display) (first rows : Nat) :
    (d.chunk first rows).header.rows = d.state.rows :=
  rfl

@[simp]
theorem cols_chunk (d : Display) (first rows : Nat) :
    (d.chunk first rows).header.cols = d.state.cols :=
  rfl

@[simp]
theorem cursorRow_chunk (d : Display) (first rows : Nat) :
    (d.chunk first rows).header.cursorRow = d.state.cursorRow :=
  rfl

@[simp]
theorem cursorCol_chunk (d : Display) (first rows : Nat) :
    (d.chunk first rows).header.cursorCol = d.state.cursorCol :=
  rfl

theorem cells_chunk (shows : d.Shows cells) (h : first + rows ≤ d.state.rows.toNat) :
    (d.chunk first rows).cells
      = (cells.drop (first * d.state.rowLength)).take (rows * d.state.rowLength) := by
  have hl := DisplayState.stretch_le h
  rw [← shows.length] at hl
  rw [chunk, shows.read _ _ hl]
  exact List.take_of_length_le (List.length_take_le ..)

theorem length_cells_chunk (fills : d.Fills) (first rows : Nat) :
    (d.chunk first rows).cells.length = rows * d.state.rowLength := by
  rw [chunk, List.length_take, fills, Nat.min_self]

variable (streamable : d.state.Streamable)

include streamable in
theorem start_chunk (h : first + rows ≤ d.state.rows.toNat) :
    (d.chunk first rows).header.start.toNat = first * d.state.rowLength := by
  have hl := DisplayState.stretch_le h
  have hr := streamable.region
  apply UInt16.toNat_ofNat_of_lt'
  rw [UInt16.size]
  omega

include streamable in
theorem count_chunk (h : first + rows ≤ d.state.rows.toNat) :
    (d.chunk first rows).header.count.toNat = rows * d.state.rowLength := by
  have hl := DisplayState.stretch_le h
  have hr := streamable.region
  apply UInt16.toNat_ofNat_of_lt'
  rw [UInt16.size]
  omega

include streamable in
theorem range_chunk (h : first + rows ≤ d.state.rows.toNat) :
    (d.chunk first rows).header.range
      = (first * d.state.rowLength, (first + rows) * d.state.rowLength) := by
  rw [ChunkHeader.range, start_chunk streamable h, count_chunk streamable h, Nat.add_mul]

end Display

theorem Chunk.parse_encode {c : Chunk} (h : c.cells.length = c.header.count.toNat) :
    Chunk.parse c.encode = .ok c := by
  simp [parse, encode, ← h]

theorem Chunk.length_encode (c : Chunk) :
    c.encode.length = chunkHeaderLength + c.cells.length := by
  rw [encode, List.length_append]
  rfl

theorem Display.parse_chunk {d : Display} {first rows : Nat} (fills : d.Fills)
    (streamable : d.state.Streamable) (h : first + rows ≤ d.state.rows.toNat) :
    Chunk.parse (d.chunk first rows).encode = .ok (d.chunk first rows) := by
  apply Chunk.parse_encode
  rw [length_cells_chunk fills, count_chunk streamable h]

-- A screen with as many cells as its shape has shows just these.
theorem Screen.shows_display {s : Screen} (h : s.cells.length = s.state.regionLength) :
    s.display.Shows s.cells where
  fills  := s.fills_display
  length := h
  read   := by
    intro start count hl
    have hc : ((s.cells.drop start).take count).length = count := by
      simp
      omega
    simp [display, Screen.read, region, Octets.fitted, Octets.zeros, List.take_take, hc]

end RemoteScreen

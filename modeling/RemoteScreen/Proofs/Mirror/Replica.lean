import RemoteScreen.Proofs.Mirror.Rows
import RemoteScreen.Replica

namespace RemoteScreen.Replica

-- What a replica can come to be, whatever chunks are put into it.
inductive Reachable : Replica → Prop
  | blank : Reachable {}
  | apply {r : Replica} (chunk : Chunk) : Reachable r → Reachable (r.apply chunk).2

def WellFormed (r : Replica) : Prop :=
  r.cells.length = r.rows.toNat * r.cols.toNat * cellWidth

variable {r : Replica} {d : Display} {front : Octets} {first rows : Nat}

theorem WellFormed.reshape (h : r.WellFormed) (rows cols : UInt8) :
    (r.reshape rows cols).WellFormed := by
  rw [Replica.reshape]
  split
  · exact h
  · simp [WellFormed]

theorem rows_reshape (r : Replica) (rows cols : UInt8) : (r.reshape rows cols).rows = rows := by
  rw [reshape]
  split
  · rename_i h
    exact h.left.symm
  · rfl

theorem cols_reshape (r : Replica) (rows cols : UInt8) : (r.reshape rows cols).cols = cols := by
  rw [reshape]
  split
  · rename_i h
    exact h.right.symm
  · rfl

theorem WellFormed.apply (h : r.WellFormed) (chunk : Chunk) : (r.apply chunk).2.WellFormed := by
  have hw := h.reshape chunk.header.rows chunk.header.cols
  rw [Replica.apply]
  simp only
  split
  · exact hw
  · rename_i hs
    rw [WellFormed, Octets.length_overwrite (Nat.le_of_not_lt hs)]
    exact hw

theorem Reachable.wellFormed (h : r.Reachable) : r.WellFormed := by
  induction h
  case blank         => rfl
  case apply _ _ _ i => exact i.apply _

theorem WellFormed.length_reshape (h : r.WellFormed) (s : DisplayState) :
    (r.reshape s.rows s.cols).cells.length = s.regionLength := by
  rw [h.reshape s.rows s.cols, rows_reshape, cols_reshape, Nat.mul_assoc]
  rfl

-- A chunk of rows within the screen always finds its place.
theorem apply_chunk (h : r.WellFormed) (fills : d.Fills) (streamable : d.state.Streamable)
    (hr : first + rows ≤ d.state.rows.toNat) :
    r.apply (d.chunk first rows) =
      (.ok (first * d.state.rowLength, (first + rows) * d.state.rowLength),
        { rows := d.state.rows
          cols := d.state.cols
          cursorRow := d.state.cursorRow
          cursorCol := d.state.cursorCol
          cells := (r.reshape d.state.rows d.state.cols).cells.overwrite
            (first * d.state.rowLength) (d.chunk first rows).cells }) := by
  have hs := Display.start_chunk streamable hr
  have hl := Display.length_cells_chunk fills first rows
  have hf := DisplayState.stretch_le hr
  rw [← h.length_reshape d.state] at hf
  simp only [Replica.apply, hs, hl, Display.rows_chunk, Display.cols_chunk,
    Display.cursorRow_chunk, Display.cursorCol_chunk]
  rw [if_neg (Nat.not_lt.mpr hf), Nat.add_mul, rows_reshape, cols_reshape]

theorem apply_chunk_twice (h : r.WellFormed) (fills : d.Fills)
    (streamable : d.state.Streamable) (hr : first + rows ≤ d.state.rows.toNat) :
    ((r.apply (d.chunk first rows)).2.apply (d.chunk first rows)).2
      = (r.apply (d.chunk first rows)).2 := by
  have hf := DisplayState.stretch_le hr
  rw [← h.length_reshape d.state] at hf
  have ha := apply_chunk h fills streamable hr
  have hs : ((r.apply (d.chunk first rows)).2).reshape d.state.rows d.state.cols
      = (r.apply (d.chunk first rows)).2 := by
    rw [ha]
    exact if_pos ⟨rfl, rfl⟩
  rw [apply_chunk (h.apply _) fills streamable hr, hs, ha]
  simp only
  rw [Octets.overwrite_overwrite (Nat.le_of_add_right_le hf)]

-- The replica has the shape of the display, and its cells begin with `front`.
structure Carries (r : Replica) (s : DisplayState) (front : Octets) : Prop where
  rows   : r.rows = s.rows
  cols   : r.cols = s.cols
  length : r.cells.length = s.regionLength
  front  : front <+: r.cells

theorem Carries.wellFormed {s : DisplayState} (c : r.Carries s front) : r.WellFormed := by
  rw [WellFormed, c.length, c.rows, c.cols, Nat.mul_assoc]
  rfl

theorem Carries.eq_cells {s : DisplayState} (c : r.Carries s front)
    (h : front.length = s.regionLength) : r.cells = front :=
  (c.front.eq_of_length <| h.trans c.length.symm).symm

theorem Carries.reshape {s : DisplayState} (c : r.Carries s front) :
    r.reshape s.rows s.cols = r := by
  rw [Replica.reshape, if_pos ⟨c.rows.symm, c.cols.symm⟩]

theorem carries_of_prefix (h : r.WellFormed) (fills : d.Fills)
    (streamable : d.state.Streamable) (hr : first + rows ≤ d.state.rows.toNat)
    (hl : front.length = first * d.state.rowLength)
    (hf : front <+: (r.reshape d.state.rows d.state.cols).cells) :
    (r.apply (d.chunk first rows)).2.Carries d.state (front ++ (d.chunk first rows).cells) := by
  have hs := DisplayState.stretch_le hr
  rw [← h.length_reshape d.state] at hs
  rw [apply_chunk h fills streamable hr]
  refine ⟨rfl, rfl, ?length, ?front⟩
  case length =>
    rw [Octets.length_overwrite, h.length_reshape]
    rw [Display.length_cells_chunk fills first rows]
    exact hs
  case front =>
    rw [List.prefix_iff_eq_take.mp hf, hl]
    exact ⟨_, rfl⟩

-- The chunk at the top carries over its rows whatever the replica was before.
theorem carries_first (h : r.WellFormed) (fills : d.Fills)
    (streamable : d.state.Streamable) (hr : rows ≤ d.state.rows.toNat) :
    (r.apply (d.chunk 0 rows)).2.Carries d.state (d.chunk 0 rows).cells := by
  have hf : (0 : Nat) + rows ≤ d.state.rows.toNat := by
    omega
  have hl : ([] : Octets).length = 0 * d.state.rowLength := by
    simp
  exact carries_of_prefix h fills streamable hf hl List.nil_prefix

-- Each chunk after it adds its rows to those carried over.
theorem Carries.next {s : DisplayState} (c : r.Carries s front) (hsr : d.state.rows = s.rows)
    (hsc : d.state.cols = s.cols) (fills : d.Fills) (streamable : d.state.Streamable)
    (hr : first + rows ≤ d.state.rows.toNat) (hl : front.length = first * d.state.rowLength) :
    (r.apply (d.chunk first rows)).2.Carries d.state (front ++ (d.chunk first rows).cells) := by
  apply carries_of_prefix c.wellFormed fills streamable hr hl
  rw [hsr, hsc, c.reshape]
  exact c.front

end RemoteScreen.Replica

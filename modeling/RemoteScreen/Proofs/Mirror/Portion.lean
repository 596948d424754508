import RemoteScreen.Proofs.Mirror.Rows

namespace RemoteScreen

-- Chunks whose cells, one after the other, are `cells`, each in its own place.
structure Tiles (chunks : Nat → Chunk) (count : Nat) (cells : Octets) : Prop where
  first  : 0 < count → (chunks 0).header.range.1 = 0
  next   : ∀ i, i + 1 < count → (chunks i).header.range.2 = (chunks (i + 1)).header.range.1
  last   : ∀ i, i + 1 = count → (chunks i).header.range.2 = cells.length
  apart  : ∀ i j, i < j → j < count → (chunks i).header.range.2 ≤ (chunks j).header.range.1
  length : ∀ i < count, (chunks i).header.range.1 + (chunks i).cells.length
    = (chunks i).header.range.2
  cells  : (List.range count).flatMap (fun i => (chunks i).cells) = cells

-- The portions of so many rows each that `rows` fall into, the last of them perhaps shorter.
def portions (size rows : Nat) : Nat :=
  (rows + size - 1) / size

theorem lt_portions {size rows i : Nat} (hs : 0 < size) :
    i < portions size rows ↔ i * size < rows := by
  rw [portions, ← Nat.succ_le_iff, Nat.le_div_iff_mul_le hs, Nat.succ_mul]
  omega

theorem le_portions_mul (size rows : Nat) (hs : 0 < size) : rows ≤ portions size rows * size := by
  apply Nat.le_of_not_lt
  rw [← lt_portions hs]
  exact Nat.lt_irrefl _

@[simp]
theorem portions_zero (size : Nat) : portions size 0 = 0 := by
  rw [portions, Nat.zero_add]
  cases size
  case zero   => rfl
  case succ n => exact Nat.div_eq_of_lt (Nat.lt_succ_self n)

-- Taking off one portion leaves one less.
theorem portions_sub {size rows : Nat} (hs : 0 < size) (hr : 0 < rows) :
    portions size (rows - size) + 1 = portions size rows := by
  have h : rows + size - 1 = rows - 1 + size := by
    omega
  rw [portions, portions, h, Nat.add_div_right _ hs]
  by_cases hl : size ≤ rows
  case pos =>
    congr 2
    omega
  case neg =>
    rw [Nat.sub_eq_zero_of_le (Nat.le_of_not_le hl), Nat.div_eq_of_lt, Nat.div_eq_of_lt] <;> omega

theorem portions_pos {size rows : Nat} (hs : 0 < size) (hr : 0 < rows) :
    0 < portions size rows :=
  portions_sub hs hr ▸ Nat.succ_pos _

namespace Display

variable {d : Display} {cells : Octets} {size i j : Nat}

-- The `i`-th chunk of a pass with `size` rows to a chunk.
def portion (d : Display) (size i : Nat) : Chunk :=
  d.chunk (i * size) (min size (d.state.rows.toNat - i * size))

theorem portion_end {rows : Nat} (h : i * size < rows) :
    i * size + min size (rows - i * size) = min ((i + 1) * size) rows := by
  rw [Nat.succ_mul]
  omega

theorem range_portion (streamable : d.state.Streamable) (h : i * size < d.state.rows.toNat) :
    (d.portion size i).header.range = (i * size * d.state.rowLength,
      min ((i + 1) * size) d.state.rows.toNat * d.state.rowLength) := by
  rw [portion, range_chunk streamable, portion_end h]
  rw [portion_end h]
  exact Nat.min_le_right ..

theorem cells_portion (shows : d.Shows cells) (h : i * size < d.state.rows.toNat) :
    (d.portion size i).cells
      = (cells.drop (i * (size * d.state.rowLength))).take (size * d.state.rowLength) := by
  have hr : i * size + min size (d.state.rows.toNat - i * size) ≤ d.state.rows.toNat := by
    rw [portion_end h]
    exact Nat.min_le_right ..
  rw [portion, cells_chunk shows hr, Nat.mul_assoc]
  by_cases hs : size ≤ d.state.rows.toNat - i * size
  case pos => rw [Nat.min_eq_left hs]
  case neg =>
    have hs := Nat.le_of_not_le hs
    have hl : (cells.drop (i * (size * d.state.rowLength))).length
        = (d.state.rows.toNat - i * size) * d.state.rowLength := by
      rw [List.length_drop, shows.length, DisplayState.regionLength, ← Nat.mul_assoc,
        ← Nat.sub_mul]
    have hm := hl ▸ Nat.mul_le_mul_right d.state.rowLength hs
    rw [Nat.min_eq_right hs, List.take_of_length_le (Nat.le_of_eq hl), List.take_of_length_le hm]

theorem flatMap_take (octets : Octets) (size count : Nat) :
    (List.range count).flatMap (fun i => (octets.drop (i * size)).take size)
      = octets.take (count * size) := by
  induction count
  case zero => simp
  case succ count hi =>
    rw [List.range_succ, List.flatMap_append, hi, Nat.succ_mul, List.take_add]
    simp

-- The chunks of a pass make up the display.
theorem tiles_portions (shows : d.Shows cells) (streamable : d.state.Streamable)
    (hs : 0 < size) :
    Tiles (d.portion size) (portions size d.state.rows.toNat) cells where
  first h := by
    rw [range_portion streamable ((lt_portions hs).mp h)]
    simp
  next i h := by
    have hi := (lt_portions hs).mp h
    have hl : i * size < d.state.rows.toNat := (lt_portions hs).mp (Nat.lt_of_succ_lt h)
    rw [range_portion streamable hl, range_portion streamable hi]
    simp only [Nat.min_eq_left (Nat.le_of_lt hi)]
  last i h := by
    have hi : i * size < d.state.rows.toNat := (lt_portions hs).mp (h ▸ Nat.lt_succ_self i)
    have hn : d.state.rows.toNat ≤ (i + 1) * size := h ▸ le_portions_mul size _ hs
    rw [range_portion streamable hi, Nat.min_eq_right hn, shows.length]
    rfl
  apart i j h hj := by
    have hj := (lt_portions hs).mp hj
    have hi : (i + 1) * size ≤ j * size := Nat.mul_le_mul_right _ h
    have hl : i * size < d.state.rows.toNat := by
      rw [Nat.succ_mul] at hi
      omega
    rw [range_portion streamable hl, range_portion streamable hj]
    apply Nat.mul_le_mul_right
    omega
  length i h := by
    have hi := (lt_portions hs).mp h
    rw [range_portion streamable hi, portion, length_cells_chunk shows.fills, ← Nat.add_mul,
      portion_end hi]
  cells := by
    let width := size * d.state.rowLength
    have hc : ∀ i ∈ List.range (portions size d.state.rows.toNat),
        (d.portion size i).cells = (cells.drop (i * width)).take width := by
      intro i h
      exact cells_portion shows <| (lt_portions hs).mp <| List.mem_range.mp h
    have hn : cells.length ≤ portions size d.state.rows.toNat * width := by
      rw [shows.length, DisplayState.regionLength, ← Nat.mul_assoc]
      exact Nat.mul_le_mul_right _ <| le_portions_mul size _ hs
    rw [List.flatMap_def, List.map_congr_left hc, ← List.flatMap_def, flatMap_take,
      List.take_of_length_le hn]

end Display

end RemoteScreen

import Mathlib.Data.List.Basic
import RemoteScreen.Proofs.Screen.Bounds

namespace RemoteScreen

-- A sheet of lines without end, and the place on it where the next character goes.
structure Sheet where
  -- Character and attribute at a line and a column.
  cell : (line col : Nat) → UInt8 × UInt8
  line : Nat := 0
  col  : Nat := 0

namespace Sheet

def blankCell : UInt8 × UInt8 :=
  (0x20, defaultAttribute)

def blank : Sheet where
  cell _ _ := blankCell

def store (t : Sheet) (character : UInt8) : Sheet :=
  { t with cell := fun line col =>
      if line = t.line ∧ col = t.col then (character, defaultAttribute) else t.cell line col }

def nextLine (t : Sheet) : Sheet :=
  { t with line := t.line + 1, col := 0 }

-- Steps back and blanks, within the line only.
def backspace (t : Sheet) : Sheet :=
  if t.col = 0 then t else { t with col := t.col - 1 }.store 0x20

-- Goes on in the line as far as it has cells.
def type (cols : Nat) (t : Sheet) (character : UInt8) : Sheet :=
  if t.col + 1 < cols then { t.store character with col := t.col + 1 }
  else (t.store character).nextLine

-- Writes an octet on a sheet whose lines have this many cells.
def put (cols : Nat) (t : Sheet) (o : UInt8) : Sheet :=
  if o = 13 then { t with col := 0 }
  else if o = 10 then t.nextLine
  else if o = 8 then t.backspace
  else t.type cols o

def putAll (cols : Nat) (t : Sheet) (octets : Octets) : Sheet :=
  octets.foldl (put cols) t

def cellOctets (t : Sheet) (line col : Nat) : Octets :=
  [(t.cell line col).1, (t.cell line col).2]

def lineOctets (t : Sheet) (cols line : Nat) : Octets :=
  (List.range' 0 cols).flatMap (t.cellOctets line)

-- The last line in sight if there is room for so many. It is the one written on, or one below it
-- as long as the first line is in sight.
def lastShown (t : Sheet) (rows : Nat) : Nat :=
  max (rows - 1) t.line

def firstShown (t : Sheet) (rows : Nat) : Nat :=
  t.lastShown rows + 1 - rows

-- The octets of the lines in sight.
def window (t : Sheet) (rows cols : Nat) : Octets :=
  (List.range' (t.firstShown rows) rows).flatMap (t.lineOctets cols)

end Sheet

theorem Octets.overwrite_within {front piece back new : Octets} {start : Nat}
    (h : start + new.length ≤ piece.length) :
    overwrite (front ++ (piece ++ back)) (front.length + start) new
      = front ++ (overwrite piece start new ++ back) := by
  have hs : start ≤ piece.length := Nat.le_of_add_right_le h
  have hf : front.take (front.length + start) = front :=
    List.take_of_length_le (Nat.le_add_right ..)
  simp [overwrite, List.take_append, List.drop_append, Nat.add_assoc, Nat.sub_eq_zero_of_le hs,
    Nat.sub_eq_zero_of_le h, List.drop_eq_nil_of_le, hf]

-- A row of pieces, all of one length.
section Pieces

variable {f g : Nat → Octets} {start count width i : Nat}

theorem length_pieces (h : ∀ n, (f n).length = width) (start count : Nat) :
    ((List.range' start count).flatMap f).length = count * width := by
  induction count generalizing start
  case zero => simp
  case succ count hi =>
    rw [List.range'_succ, List.flatMap_cons, List.length_append, hi, h, Nat.succ_mul, Nat.add_comm]

theorem pieces_split (f : Nat → Octets) (h : i < count) :
    (List.range' start count).flatMap f = (List.range' start i).flatMap f ++
      (f (start + i) ++ (List.range' (start + i + 1) (count - i - 1)).flatMap f) := by
  have hc : count = i + (count - i - 1 + 1) := by
    omega
  conv => lhs; rw [hc]
  rw [← List.range'_append_1, List.flatMap_append, List.range'_succ, List.flatMap_cons]

-- Writing over a part of one piece is writing over a part of the row.
theorem overwrite_pieces {offset : Nat} {new : Octets} (hi : i < count)
    (hw : ∀ n, (f n).length = width) (others : ∀ n, n ≠ start + i → g n = f n)
    (here : g (start + i) = (f (start + i)).overwrite offset new)
    (ho : offset + new.length ≤ width) :
    (List.range' start count).flatMap g
      = Octets.overwrite ((List.range' start count).flatMap f) (i * width + offset) new := by
  have before : (List.range' start i).flatMap g = (List.range' start i).flatMap f := by
    refine List.flatMap_congr fun n hn => others n ?_
    have := List.mem_range'_1.mp hn
    omega
  have after : (List.range' (start + i + 1) (count - i - 1)).flatMap g
      = (List.range' (start + i + 1) (count - i - 1)).flatMap f := by
    refine List.flatMap_congr fun n hn => others n ?_
    have := List.mem_range'_1.mp hn
    omega
  rw [pieces_split g hi, pieces_split f hi, before, after, here, ← length_pieces hw start i]
  exact (Octets.overwrite_within (hw _ ▸ ho)).symm

end Pieces

namespace Screen

theorem blanks_add (colour : UInt8) (m n : Nat) :
    blanks colour (m + n) = blanks colour m ++ blanks colour n := by
  induction m
  case zero => simp [blanks]
  case succ m hi => simp [blanks, Nat.succ_add, hi]

theorem blanks_pieces (colour : UInt8) (start count n : Nat) :
    (List.range' start count).flatMap (fun _ => blanks colour n) = blanks colour (count * n) := by
  induction count generalizing start
  case zero => simp [blanks]
  case succ count hi =>
    rw [List.range'_succ, List.flatMap_cons, hi, Nat.succ_mul, Nat.add_comm, blanks_add]

end Screen

namespace Sheet

variable {t : Sheet} {rows cols line row : Nat}

theorem length_lineOctets (t : Sheet) (cols line : Nat) :
    (t.lineOctets cols line).length = cols * 2 :=
  length_pieces (f := t.cellOctets line) (fun _ => rfl) 0 cols

theorem lineOctets_of_blank (h : ∀ col, t.cell line col = blankCell) (cols : Nat) :
    t.lineOctets cols line = Screen.blanks defaultAttribute cols := by
  have hc : t.cellOctets line = fun _ => Screen.blanks defaultAttribute 1 := by
    funext col
    rw [cellOctets, h]
    rfl
  rw [lineOctets, hc, Screen.blanks_pieces, Nat.mul_one]

theorem window_blank (rows cols : Nat) :
    blank.window rows cols = Screen.blanks defaultAttribute (rows * cols) := by
  have hl : blank.lineOctets cols = fun _ => Screen.blanks defaultAttribute cols :=
    funext fun _ => lineOctets_of_blank (fun _ => rfl) cols
  rw [window, hl, Screen.blanks_pieces]

-- A character that is put on the sheet is put into one cell of the lines in sight.
theorem window_store (hl : t.line = t.firstShown rows + row) (hr : row < rows) (hc : t.col < cols)
    (character : UInt8) : (t.store character).window rows cols =
      (t.window rows cols).overwrite ((row * cols + t.col) * 2) [character, defaultAttribute] := by
  have others (line : Nat) (hn : line ≠ t.firstShown rows + row) :
      (t.store character).lineOctets cols line = t.lineOctets cols line := by
    have : (t.store character).cellOctets line = t.cellOctets line := by
      funext col
      simp [cellOctets, store, hl, hn]
    rw [lineOctets, this, lineOctets]
  have here : (t.store character).lineOctets cols t.line =
      (t.lineOctets cols t.line).overwrite (t.col * 2 + 0) [character, defaultAttribute] := by
    have hw (col : Nat) : (t.cellOctets t.line col).length = 2 := rfl
    refine overwrite_pieces hc hw (fun col hn => ?_) ?_ (Nat.le_refl 2)
    · rw [Nat.zero_add] at hn
      simp [cellOctets, store, hn]
    · simp [cellOctets, store, Octets.overwrite]
  have hp : (row * cols + t.col) * 2 = row * (cols * 2) + t.col * 2 := by
    rw [Nat.add_mul, Nat.mul_assoc]
  rw [hl] at here
  rw [hp]
  refine overwrite_pieces hr (t.length_lineOctets cols) others here ?_
  simp only [List.length_cons, List.length_nil]
  omega

-- As long as there is room below, the lines in sight stay.
theorem firstShown_of_lt (h : t.line < rows) : t.firstShown rows = 0 := by
  rw [firstShown, lastShown]
  omega

-- Otherwise the line written on is the last one in sight.
theorem firstShown_of_le (h : rows ≤ t.line + 1) : t.firstShown rows + rows = t.line + 1 := by
  rw [firstShown, lastShown]
  omega

theorem window_nextLine_of_lt (h : t.line + 1 < rows) :
    t.nextLine.window rows cols = t.window rows cols := by
  rw [window, window, firstShown_of_lt (t := t.nextLine) h, firstShown_of_lt (Nat.lt_of_succ_lt h)]
  rfl

theorem window_nextLine_of_le (hr : 1 ≤ rows) (h : rows ≤ t.line + 1)
    (below : ∀ col, t.cell (t.line + 1) col = blankCell) : t.nextLine.window rows cols =
      (t.window rows cols).drop (cols * 2) ++ Screen.blanks defaultAttribute cols := by
  obtain ⟨others, rfl⟩ := Nat.exists_eq_add_of_le' hr
  have hf := firstShown_of_le h
  have hn : t.nextLine.firstShown (others + 1) = t.firstShown (others + 1) + 1 := by
    have : t.nextLine.firstShown (others + 1) + (others + 1) = t.line + 1 + 1 :=
      firstShown_of_le (t := t.nextLine) (Nat.le_succ_of_le h)
    omega
  have hl : t.firstShown (others + 1) + 1 + others = t.line + 1 := by
    omega
  calc t.nextLine.window (others + 1) cols
      = (List.range' (t.firstShown (others + 1) + 1) (others + 1)).flatMap (t.lineOctets cols) := by
        rw [window, hn]
        rfl
    _ = (List.range' (t.firstShown (others + 1) + 1) others).flatMap (t.lineOctets cols) ++
          Screen.blanks defaultAttribute cols := by
        rw [List.range'_1_concat, List.flatMap_append, List.flatMap_singleton, hl,
          lineOctets_of_blank below]
    _ = (t.window (others + 1) cols).drop (cols * 2) ++ Screen.blanks defaultAttribute cols := by
        rw [window, List.range'_succ, List.flatMap_cons,
          ← t.length_lineOctets cols (t.firstShown (others + 1)), List.drop_left]

end Sheet

namespace Screen

variable {s : Screen} {height width : UInt8} {t : Sheet}

-- The screen shows the end of what is written on the sheet, and the cursor where it goes on.
structure Shows (s : Screen) (height width : UInt8) (t : Sheet) : Prop where
  rows      : s.rows = height
  cols      : s.cols = width
  cells     : s.cells = t.window height.toNat width.toNat
  cursorRow : t.firstShown height.toNat + s.cursorRow.toNat = t.line
  cursorCol : s.cursorCol.toNat = t.col

-- Besides, nothing is written on the sheet below the line written on.
structure Tracks (s : Screen) (height width : UInt8) (t : Sheet) : Prop extends
    s.Shows height width t where
  whole  : s.Whole
  colour : s.colour = defaultAttribute
  below  : ∀ line col, t.line < line → t.cell line col = Sheet.blankCell

theorem Tracks.row_lt (h : s.Tracks height width t) : s.cursorRow.toNat < height.toNat :=
  h.rows ▸ h.whole.row

theorem Tracks.col_lt (h : s.Tracks height width t) : t.col < width.toNat :=
  h.cursorCol ▸ h.cols ▸ h.whole.col

theorem tracks_clear (h : s.Whole) (hc : s.colour = defaultAttribute) :
    s.clear.Tracks s.rows s.cols .blank where
  rows      := rfl
  cols      := rfl
  cells     := by rw [Sheet.window_blank, clear, hc]
  cursorRow := by rw [Sheet.firstShown_of_lt (t := .blank) h.rows, Nat.zero_add]; rfl
  cursorCol := rfl
  whole     := whole_clear h.isUsable
  colour    := hc
  below _ _ _ := rfl

theorem Tracks.move (h : s.Tracks height width t) (col : UInt8) (hc : col.toNat < width.toNat) :
    Tracks { s with cursorCol := col } height width { t with col := col.toNat } where
  rows      := h.rows
  cols      := h.cols
  cells     := h.cells
  cursorRow := h.cursorRow
  cursorCol := rfl
  whole     := { h.whole with col := h.cols ▸ hc }
  colour    := h.colour
  below     := h.below

theorem Tracks.store (h : s.Tracks height width t) (character : UInt8) :
    (s.store s.cursorRow s.cursorCol character).Tracks height width (t.store character) where
  rows      := h.rows
  cols      := h.cols
  cursorRow := h.cursorRow
  cursorCol := h.cursorCol
  whole     := (h.whole.store h.whole.row h.whole.col character).right
  colour    := h.colour
  cells     := by
    rw [Sheet.window_store h.cursorRow.symm h.row_lt h.col_lt, ← h.cells, ← h.cursorCol, ← h.cols,
      ← h.colour]
    rfl
  below line col hl := by
    have hn : ¬ (line = t.line ∧ col = t.col) := fun hn => Nat.ne_of_gt hl hn.left
    exact (if_neg hn).trans (h.below line col hl)

theorem Tracks.startLine (h : s.Tracks height width t) :
    s.startLine.Tracks height width { t with col := 0 } :=
  h.move 0 (h.cols ▸ h.whole.cols)

theorem Tracks.below_next (h : s.Tracks height width t) {line : Nat} (hl : t.line + 1 < line)
    (col : Nat) : t.cell line col = Sheet.blankCell :=
  h.below line col (Nat.lt_of_succ_lt hl)

-- While there is room below the cursor, the first line in sight is the first of all.
theorem Tracks.descend (h : s.Tracks height width t) (hc : t.col = 0)
    (hn : s.cursorRow.toNat + 1 < height.toNat) :
    Tracks { s with cursorRow := s.cursorRow + 1 } height width t.nextLine := by
  have hl := h.cursorRow
  have hv := (next?_eq h.whole.row).right
  have room : t.line + 1 < height.toNat := by
    apply Nat.lt_of_not_le
    intro hle
    have := Sheet.firstShown_of_le hle
    omega
  rw [Sheet.firstShown_of_lt (Nat.lt_of_succ_lt room)] at hl
  exact {
    rows      := h.rows
    cols      := h.cols
    cells     := h.cells.trans (Sheet.window_nextLine_of_lt room).symm
    cursorRow := by
      rw [Sheet.firstShown_of_lt (t := t.nextLine) room, hv, ← Nat.add_assoc, hl]
      rfl
    cursorCol := h.cursorCol.trans hc
    whole     := { h.whole with row := by rwa [hv, h.rows] }
    colour    := h.colour
    below     := fun _ col hl => h.below_next hl col }

-- The screen scrolls when the sheet goes on below the last line in sight.
theorem Tracks.scroll (h : s.Tracks height width t) (hc : t.col = 0)
    (hn : height.toNat ≤ s.cursorRow.toNat + 1) : s.scroll.Tracks height width t.nextLine := by
  have hl := h.cursorRow
  have hr := h.row_lt
  have full : height.toNat ≤ t.line + 1 := by
    omega
  have now := Sheet.firstShown_of_le full
  have next : t.nextLine.firstShown height.toNat + height.toNat = t.line + 1 + 1 :=
    Sheet.firstShown_of_le (t := t.nextLine) (Nat.le_succ_of_le full)
  have blank (col : Nat) := h.below (t.line + 1) col (Nat.lt_succ_self _)
  exact {
    rows      := h.rows
    cols      := h.cols
    cells     := by
      rw [Sheet.window_nextLine_of_le (Nat.one_le_of_lt hr) full blank, ← h.cells, ← h.cols,
        ← h.colour]
      rfl
    cursorRow := show _ + s.cursorRow.toNat = t.line + 1 by omega
    cursorCol := h.cursorCol.trans hc
    whole     := h.whole.scroll.right
    colour    := h.colour
    below     := fun _ col hl => h.below_next hl col }

theorem Tracks.lineFeed (h : s.Tracks height width t) (hc : t.col = 0) :
    s.lineFeed.Tracks height width t.nextLine := by
  rw [Screen.lineFeed]
  split
  case isTrue hn  => exact h.descend hc (h.rows ▸ hn)
  case isFalse hn => exact h.scroll hc (h.rows ▸ Nat.le_of_not_lt hn)

theorem Tracks.nextLine (h : s.Tracks height width t) :
    s.startLine.lineFeed.Tracks height width t.nextLine :=
  h.startLine.lineFeed rfl

theorem Tracks.backspace (h : s.Tracks height width t) :
    s.backspace.Tracks height width t.backspace := by
  have hi : 0 < s.cursorCol ↔ 0 < t.col := h.cursorCol ▸ UInt8.lt_iff_toNat_lt
  rw [Screen.backspace, Sheet.backspace]
  split
  case isTrue hc =>
    have hv := (previous?_eq (UInt8.lt_iff_toNat_lt.mp hc)).right
    have hl := h.col_lt
    rw [h.cursorCol] at hv
    have back := (h.move (s.cursorCol - 1) (by omega)).store 0x20
    rw [hv] at back
    rwa [if_neg (Nat.ne_of_gt (hi.mp hc))]
  case isFalse hc => rwa [if_pos (Nat.eq_zero_of_not_pos (mt hi.mpr hc))]

theorem Tracks.type (h : s.Tracks height width t) (character : UInt8) :
    (s.type character).Tracks height width (t.type width.toNat character) := by
  have stored := h.store character
  have hv := (next?_eq h.whole.col).right
  rw [Screen.type, Sheet.type]
  split
  case isTrue hl =>
    have hl : s.cols.toNat ≤ s.cursorCol.toNat + 1 := hl
    rw [h.cols, h.cursorCol] at hl
    rw [if_neg (Nat.not_lt_of_le hl)]
    exact stored.nextLine
  case isFalse hl =>
    have hl : ¬ s.cols.toNat ≤ s.cursorCol.toNat + 1 := hl
    rw [h.cols, h.cursorCol, Nat.not_le] at hl
    have moved := stored.move (s.cursorCol + 1) (by rwa [hv, h.cursorCol])
    rw [hv, h.cursorCol] at moved
    rwa [if_pos hl]

theorem Tracks.put (h : s.Tracks height width t) (o : UInt8) :
    (s.put o).Tracks height width (t.put width.toNat o) := by
  rw [Screen.put, Sheet.put, carriageReturn, newline, erase]
  split
  case isTrue => exact h.startLine
  case isFalse =>
    split
    case isTrue => exact h.nextLine
    case isFalse =>
      split
      case isTrue  => exact h.backspace
      case isFalse => exact h.type o

theorem Tracks.putAll (h : s.Tracks height width t) (octets : Octets) :
    (s.putAll octets).Tracks height width (t.putAll width.toNat octets) := by
  induction octets generalizing s t
  case nil => exact h
  case cons o rest hi => exact hi (h.put o)

-- The octets that an event writes, if it is one that writes.
def Event.written? : Event → Option Octets
  | .put o      => some [o]
  | .write text => some text.toUTF8.toList
  | _           => none

theorem Tracks.step (h : s.Tracks height width t) {event : Event} {octets : Octets}
    (hw : event.written? = some octets) :
    (s.step event).Tracks height width (t.putAll width.toNat octets) := by
  cases event
  case put o      => exact Option.some.inj hw ▸ h.put o
  case write text => exact Option.some.inj hw ▸ h.putAll _
  all_goals contradiction

theorem Tracks.run (h : s.Tracks height width t) {events : List Event} {pieces : List Octets}
    (hw : events.mapM Event.written? = some pieces) :
    (s.run events).Tracks height width (t.putAll width.toNat pieces.flatten) := by
  induction events generalizing s t pieces
  case nil =>
    obtain rfl := Option.some.inj hw
    exact h
  case cons event rest hi =>
    rw [List.mapM_cons] at hw
    obtain ⟨octets, ho, hw⟩ := Option.bind_eq_some_iff.mp hw
    obtain ⟨others, hr, hw⟩ := Option.bind_eq_some_iff.mp hw
    obtain rfl := Option.some.inj hw
    rw [List.flatten_cons, Sheet.putAll, List.foldl_append]
    exact hi (h.step ho) hr

section Colour

-- Whatever is done to a screen, the colour of its writer stays.

@[simp]
theorem colour_lineFeed (s : Screen) : s.lineFeed.colour = s.colour := by
  rw [lineFeed]
  split <;> rfl

@[simp]
theorem colour_put (s : Screen) (o : UInt8) : (s.put o).colour = s.colour := by
  rw [Screen.put]
  split
  case isTrue  => rfl
  case isFalse =>
    split
    case isTrue  => exact colour_lineFeed s.startLine
    case isFalse =>
      split
      case isTrue =>
        rw [Screen.backspace]
        split <;> rfl
      case isFalse =>
        rw [Screen.type]
        split
        case isTrue  => exact colour_lineFeed (startLine _)
        case isFalse => rfl

@[simp]
theorem colour_putAll (s : Screen) (octets : Octets) : (s.putAll octets).colour = s.colour := by
  induction octets generalizing s
  case nil            => rfl
  case cons o rest hi => exact (hi _).trans (colour_put s o)

@[simp]
theorem colour_echo (s : Screen) (key : Keystroke) : (s.echo key).colour = s.colour := by
  simp only [Screen.echo]
  split
  case isTrue => exact colour_put s newline
  case isFalse =>
    split
    case isTrue => exact colour_put s erase
    case isFalse =>
      split
      case isTrue  => exact colour_put s _
      case isFalse => rfl

@[simp]
theorem colour_step (s : Screen) (event : Event) : (s.step event).colour = s.colour := by
  cases event
  case put o              => exact colour_put s o
  case write text         => exact colour_putAll s _
  case clear              => rfl
  case setCursor          => rfl
  case setMode            => rfl
  case echo key           => exact colour_echo s key
  case resize rows cols   =>
    rw [Screen.step, tryResize_eq]
    split <;> rfl
  case paint start octets =>
    rw [Screen.step, paint?]
    split <;> rfl

@[simp]
theorem colour_run (s : Screen) (events : List Event) : (s.run events).colour = s.colour := by
  induction events generalizing s
  case nil                => rfl
  case cons event rest hi => exact (hi _).trans (colour_step s event)

end Colour

-- What is written on a blank screen, by octets or by texts, can be seen as on a sheet without end,
-- as far as the screen has rows for it.
theorem shows_sheet {rows cols : UInt8} (h : make rows cols = .ok s) {events : List Event}
    {pieces : List Octets} (hw : events.mapM Event.written? = some pieces) :
    (s.run events).Shows rows cols (Sheet.blank.putAll cols.toNat pieces.flatten) ∧
      ∀ before, ((s.run before).clear.run events).Shows (s.run before).rows (s.run before).cols
        (Sheet.blank.putAll (s.run before).cols.toNat pieces.flatten) := by
  have whole := whole_of_make h
  obtain ⟨hu, rfl⟩ := make_eq_ok h
  constructor
  case left =>
    have cleared := tracks_clear whole rfl
    exact (cleared.run hw).toShows
  case right =>
    intro before
    have cleared := tracks_clear (whole.run before).right (colour_run _ before)
    exact (cleared.run hw).toShows

-- The third character fills a row, so there is nothing to erase before the fourth; the line after
-- that is past the last row.
theorem shows_sheet_scrolled :
    ∃ s, make 2 3 = .ok s ∧
      let events := [.write "ab", .put 0x63, .put erase, .put 0x64, .put newline, .put 0x65]
      let written : Octets := [0x61, 0x62, 0x63, 0x08, 0x64, 0x0a, 0x65]
      (s.run events).cells = [0x64, 7, 0x20, 7, 0x20, 7, 0x65, 7, 0x20, 7, 0x20, 7] ∧
        (s.run events).Shows 2 3 (Sheet.blank.putAll 3 written) ∧
        ((s.run [.setCursor 1 2, .resize 1 4]).clear.run events).Shows 1 4
          (Sheet.blank.putAll 4 written) := by
  have hm : make 2 3 = .ok _ := rfl
  have hw : [.write "ab", .put 0x63, .put erase, .put 0x64, .put newline, .put 0x65].mapM
      Event.written? = some [[0x61, 0x62], [0x63], [0x08], [0x64], [0x0a], [0x65]] := by
    decide +kernel
  have ⟨now, later⟩ := shows_sheet hm hw
  exact ⟨_, rfl, by decide +kernel, now, later [.setCursor 1 2, .resize 1 4]⟩

end Screen

end RemoteScreen

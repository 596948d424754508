import RemoteScreen.Screen.Run

namespace RemoteScreen.Screen

variable {s s' : Screen} {rows cols : UInt8} {event : Event}

-- The operations once more. These have no answer where a cell would lie outside of the screen, or
-- where a count of eight bits would wrap. The others count nothing and go by no position.

def next? (n : UInt8) : Option UInt8 :=
  if n.toNat + 1 < UInt8.size then some (n + 1) else none

def previous? (n : UInt8) : Option UInt8 :=
  if 0 < n.toNat then some (n - 1) else none

def store? (s : Screen) (row col : UInt8) (character : UInt8) : Option Screen :=
  let position := (row.toNat * s.cols.toNat + col.toNat) * cellWidth
  if position < s.cells.length ∧ position + 1 < s.cells.length then
    some (s.store row col character)
  else none

def scroll? (s : Screen) : Option Screen :=
  if s.rowLength ≤ s.cells.length then some s.scroll else none

def lineFeed? (s : Screen) : Option Screen := do
  let below ← next? s.cursorRow
  if below < s.rows then return { s with cursorRow := below } else s.scroll?

def backspace? (s : Screen) : Option Screen :=
  if 0 < s.cursorCol then do
    let col ← previous? s.cursorCol
    { s with cursorCol := col }.store? s.cursorRow col 0x20
  else some s

def type? (s : Screen) (character : UInt8) : Option Screen := do
  let stored ← s.store? s.cursorRow s.cursorCol character
  let col ← next? s.cursorCol
  if s.cols ≤ col then stored.startLine.lineFeed? else return { stored with cursorCol := col }

def put? (s : Screen) (o : UInt8) : Option Screen :=
  if o = carriageReturn then some s.startLine
  else if o = newline then s.startLine.lineFeed?
  else if o = erase then s.backspace?
  else s.type? o

def setCursor? (s : Screen) (row col : UInt8) : Option Screen := do
  let lastRow ← previous? s.rows
  let lastCol ← previous? s.cols
  return { s with cursorRow := min row lastRow, cursorCol := min col lastCol }

def echo? (s : Screen) (key : Keystroke) : Option Screen :=
  let o := key.character
  if o = carriageReturn ∨ o = newline then s.put? newline
  else if o = erase then s.put? erase
  else if 0x20 ≤ o ∧ o ≤ 0x7e then s.put? o
  else some s

def row? (s : Screen) (row : UInt8) : Option Octets :=
  if row < s.rows then
    if row.toNat * s.rowLength + s.rowLength ≤ s.cells.length then some (s.row row) else none
  else some []

def step? (s : Screen) : Event → Option Screen
  | .put o             => s.put? o
  | .write text        => text.toUTF8.toList.foldlM put? s
  | .setCursor row col => s.setCursor? row col
  | .echo key          => s.echo? key
  | event              => some (s.step event)

def run? (s : Screen) (events : List Event) : Option Screen :=
  events.foldlM step? s

-- The screen has cells, no more of them than can be placed, and the cursor is on one of them.
structure Whole (s : Screen) : Prop where
  rows   : 1 ≤ s.rows.toNat
  cols   : 1 ≤ s.cols.toNat
  region : s.rows.toNat * s.cols.toNat * 2 ≤ 65535
  cells  : s.cells.length = s.rows.toNat * s.cols.toNat * 2
  row    : s.cursorRow.toNat < s.rows.toNat
  col    : s.cursorCol.toNat < s.cols.toNat

-- There is an answer, and it is a whole screen.
def Yields (s? : Option Screen) (s : Screen) : Prop :=
  s? = some s ∧ s.Whole

theorem Whole.yields (h : s.Whole) : Yields (some s) s :=
  ⟨rfl, h⟩

theorem next?_eq {n : UInt8} {bound : UInt8} (h : n.toNat < bound.toNat) :
    next? n = some (n + 1) ∧ (n + 1).toNat = n.toNat + 1 := by
  have hb := bound.toNat_lt
  have hs : n.toNat + 1 < UInt8.size := by
    rw [UInt8.size]
    omega
  refine ⟨if_pos hs, ?_⟩
  rw [UInt8.toNat_add]
  exact Nat.mod_eq_of_lt hs

theorem previous?_eq {n : UInt8} (h : 0 < n.toNat) :
    previous? n = some (n - 1) ∧ (n - 1).toNat = n.toNat - 1 := by
  have hl : (1 : UInt8) ≤ n := UInt8.le_iff_toNat_le.mpr h
  exact ⟨if_pos h, UInt8.toNat_sub_of_le _ _ hl⟩

@[simp]
theorem length_blanks (colour : UInt8) (count : Nat) :
    (blanks colour count).length = count * 2 := by
  induction count
  case zero      => rfl
  case succ _ hi => simp [blanks, hi, Nat.succ_mul]

theorem isUsable_iff : isUsable rows cols ↔
    1 ≤ rows.toNat ∧ 1 ≤ cols.toNat ∧ rows.toNat * cols.toNat * 2 ≤ 65535 := by
  have hp : 0 < regionLength rows cols ↔ 1 ≤ rows.toNat ∧ 1 ≤ cols.toNat := by
    rw [regionLength, Nat.mul_pos_iff_of_pos_right (by decide), Nat.pos_iff_ne_zero,
      Nat.mul_ne_zero_iff, Nat.one_le_iff_ne_zero, Nat.one_le_iff_ne_zero]
  rw [isUsable, Bool.and_eq_true, decide_eq_true_eq, decide_eq_true_eq, hp, and_assoc]
  rfl

theorem whole_clear (h : isUsable s.rows s.cols) : s.clear.Whole where
  rows   := (isUsable_iff.mp h).left
  cols   := (isUsable_iff.mp h).right.left
  region := (isUsable_iff.mp h).right.right
  cells  := length_blanks ..
  row    := (isUsable_iff.mp h).left
  col    := (isUsable_iff.mp h).right.left

theorem Whole.isUsable (h : s.Whole) : isUsable s.rows s.cols :=
  isUsable_iff.mpr ⟨h.rows, h.cols, h.region⟩

section Steps

variable {row col : UInt8}

theorem position_lt {row col rows cols : Nat} (hr : row < rows) (hc : col < cols) :
    (row * cols + col) * 2 + 1 < rows * cols * 2 := by
  have hl : (row + 1) * cols ≤ rows * cols := Nat.mul_le_mul_right cols hr
  rw [Nat.succ_mul] at hl
  omega

theorem Whole.store (h : s.Whole) (hr : row.toNat < s.rows.toNat) (hc : col.toNat < s.cols.toNat)
    (character : UInt8) : Yields (s.store? row col character) (s.store row col character) := by
  have hp : (row.toNat * s.cols.toNat + col.toNat) * cellWidth + 1 < s.cells.length :=
    h.cells ▸ position_lt hr hc
  refine ⟨if_pos ⟨Nat.lt_of_succ_lt hp, hp⟩, ?_⟩
  exact { h with cells := (Octets.length_overwrite hp).trans h.cells }

theorem Whole.scroll (h : s.Whole) : Yields s.scroll? s.scroll := by
  have hl : s.rowLength ≤ s.cells.length := by
    have hr := Nat.mul_le_mul_right (s.cols.toNat * 2) h.rows
    rw [rowLength, h.cells, Nat.mul_assoc]
    rwa [Nat.one_mul] at hr
  refine ⟨if_pos hl, { h with cells := Eq.trans ?_ h.cells }⟩
  simp only [Screen.scroll, List.length_append, List.length_drop, length_blanks]
  exact Nat.sub_add_cancel hl

theorem Whole.lineFeed (h : s.Whole) : Yields s.lineFeed? s.lineFeed := by
  have ⟨hn, hv⟩ := next?_eq h.row
  rw [lineFeed?, hn, Screen.lineFeed, ← hv]
  simp only [Option.bind_eq_bind, Option.bind_some, UInt8.lt_iff_toNat_lt]
  split
  case isTrue hr  => exact Whole.yields { h with row := hr }
  case isFalse hr => exact h.scroll

theorem Whole.startLine (h : s.Whole) : s.startLine.Whole :=
  { h with col := h.cols }

theorem Whole.backspace (h : s.Whole) : Yields s.backspace? s.backspace := by
  rw [backspace?, Screen.backspace]
  split
  case isTrue hc =>
    have ⟨hp, hv⟩ := previous?_eq (UInt8.lt_iff_toNat_lt.mp hc)
    have hl : (s.cursorCol - 1).toNat < s.cols.toNat := by
      have := h.col
      omega
    have back : Whole { s with cursorCol := s.cursorCol - 1 } := { h with col := hl }
    rw [hp]
    exact back.store h.row hl 0x20
  case isFalse => exact h.yields

theorem Whole.type (h : s.Whole) (character : UInt8) :
    Yields (s.type? character) (s.type character) := by
  have ⟨hs, stored⟩ := h.store h.row h.col character
  have ⟨hn, hv⟩ := next?_eq h.col
  rw [type?, hs, hn, Screen.type]
  simp only [Option.bind_eq_bind, Option.bind_some, UInt8.le_iff_toNat_le, hv]
  have hc : (s.store s.cursorRow s.cursorCol character).cols = s.cols := rfl
  have hk : (s.store s.cursorRow s.cursorCol character).cursorCol = s.cursorCol := rfl
  rw [hc, hk]
  split
  case isTrue     => exact stored.startLine.lineFeed
  case isFalse hl =>
    have hl : (s.cursorCol + 1).toNat < s.cols.toNat := by
      omega
    exact Whole.yields { stored with col := hl }

theorem Whole.put (h : s.Whole) (o : UInt8) : Yields (s.put? o) (s.put o) := by
  rw [put?, Screen.put]
  split
  case isTrue => exact h.startLine.yields
  case isFalse =>
    split
    case isTrue => exact h.startLine.lineFeed
    case isFalse =>
      split
      case isTrue  => exact h.backspace
      case isFalse => exact h.type o

theorem Whole.putAll (h : s.Whole) (octets : Octets) :
    Yields (octets.foldlM put? s) (s.putAll octets) := by
  induction octets generalizing s
  case nil => exact h.yields
  case cons o rest hi =>
    have ⟨ho, now⟩ := h.put o
    rw [List.foldlM_cons, ho]
    exact hi now

theorem toNat_min_lt {bound : UInt8} (h : 1 ≤ bound.toNat) (n : UInt8) :
    (min n (bound - 1)).toNat < bound.toNat := by
  have hv := (previous?_eq h).right
  have hm : (min n (bound - 1)).toNat ≤ (bound - 1).toNat :=
    UInt8.le_iff_toNat_le.mp Std.min_le_right
  omega

theorem Whole.setCursor (h : s.Whole) (row col : UInt8) :
    Yields (s.setCursor? row col) (s.setCursor row col) := by
  refine ⟨?answer, { h with row := toNat_min_lt h.rows row, col := toNat_min_lt h.cols col }⟩
  rw [setCursor?, (previous?_eq h.rows).left, (previous?_eq h.cols).left]
  rfl

theorem Whole.echo (h : s.Whole) (key : Keystroke) : Yields (s.echo? key) (s.echo key) := by
  simp only [echo?, Screen.echo]
  split
  case isTrue => exact h.put newline
  case isFalse =>
    split
    case isTrue => exact h.put erase
    case isFalse =>
      split
      case isTrue  => exact h.put _
      case isFalse => exact h.yields

theorem Whole.row?_eq (h : s.Whole) (row : UInt8) : s.row? row = some (s.row row) := by
  rw [row?, Screen.row]
  by_cases hr : row < s.rows
  case neg => rw [if_neg hr, if_neg hr]
  case pos =>
    have hl := Nat.mul_le_mul_right s.rowLength (UInt8.lt_iff_toNat_lt.mp hr)
    rw [Nat.succ_mul, rowLength, ← Nat.mul_assoc, ← Nat.mul_assoc, cellWidth, ← h.cells] at hl
    rw [if_pos hr, if_pos hr, if_pos]
    rw [rowLength, cellWidth, ← Nat.mul_assoc]
    exact hl

end Steps

-- A shape that cannot be used is refused, and any other is taken.
theorem tryResize_eq (s : Screen) (rows cols : UInt8) : s.tryResize rows cols =
    if isUsable rows cols then (.ok (), { s with rows, cols }.clear)
    else (.error (.configuration
      s!"display geometry {rows.toNat}x{cols.toNat} is not usable"), s) := by
  rw [tryResize, resize, checkShape]
  by_cases h : isUsable rows cols <;> simp only [h] <;> rfl

theorem Whole.tryResize (h : s.Whole) (rows cols : UInt8) : (s.tryResize rows cols).2.Whole := by
  rw [tryResize_eq]
  split
  case isTrue hu => exact whole_clear hu
  case isFalse   => exact h

theorem Whole.paint (h : s.Whole) (start : Nat) (octets : Octets) :
    ((s.paint? start octets).getD s).Whole := by
  rw [paint?]
  split
  case isTrue hl => exact { h with cells := (Octets.length_overwrite hl).trans h.cells }
  case isFalse   => exact h

theorem Whole.step (h : s.Whole) (event : Event) : Yields (s.step? event) (s.step event) := by
  cases event
  case put o               => exact h.put o
  case write text          => exact h.putAll _
  case clear               => exact (whole_clear h.isUsable).yields
  case resize rows cols    => exact (h.tryResize rows cols).yields
  case setCursor row col   => exact h.setCursor row col
  case setMode mode        => exact Whole.yields { h with }
  case paint start octets  => exact (h.paint start octets).yields
  case echo key            => exact h.echo key

theorem Whole.run (h : s.Whole) (events : List Event) : Yields (s.run? events) (s.run events) := by
  induction events generalizing s
  case nil => exact h.yields
  case cons event rest hi =>
    have ⟨he, now⟩ := h.step event
    rw [run?, List.foldlM_cons, he]
    exact hi now

theorem make_eq_ok (h : make rows cols = .ok s) :
    isUsable rows cols ∧ s = ({ rows, cols, cells := [] } : Screen).clear := by
  rw [make, checkShape] at h
  by_cases hu : isUsable rows cols <;> simp only [hu] at h
  case pos => exact ⟨hu, (Except.ok.inj h).symm⟩
  case neg => contradiction

theorem whole_of_make (h : make rows cols = .ok s) : s.Whole := by
  obtain ⟨hu, rfl⟩ := make_eq_ok h
  exact whole_clear hu

-- Whatever is done to a screen, it keeps its cells and its cursor within its shape, and no step of
-- it reaches past its cells or counts past eight bits. A shape that is refused leaves it as it is.
theorem within_bounds (h : make rows cols = .ok s) (events : List Event) :
    (s.run events).Whole ∧ s.run? events = some (s.run events) ∧
      (∀ row, (s.run events).row? row = some ((s.run events).row row)) ∧
      ∀ rows cols : UInt8,
        rows.toNat * cols.toNat * 2 = 0 ∨ 65535 < rows.toNat * cols.toNat * 2 →
        (s.run events).tryResize rows cols = (.error (.configuration
          s!"display geometry {rows.toNat}x{cols.toNat} is not usable"), s.run events) := by
  have ⟨answer, whole⟩ := (whole_of_make h).run events
  refine ⟨whole, answer, whole.row?_eq, fun rows cols hr => ?_⟩
  have hu : ¬ isUsable rows cols := by
    rw [isUsable_iff, ← and_assoc]
    rintro ⟨⟨hrows, hcols⟩, hl⟩
    have := Nat.mul_pos hrows hcols
    omega
  rw [tryResize_eq, if_neg hu]

-- As many rows as there can be, with the cursor on the last of them.
theorem within_bounds_tall :
    ∃ s, make 255 1 = .ok s ∧
      let events := [.setCursor 255 255, .put 0x78, .resize 255 255, .echo (.plain erase)]
      (s.run events).cursorRow = 254 ∧ (s.run events).Whole ∧
        s.run? events = some (s.run events) ∧
        (s.run events).tryResize 255 255 = (.error (.configuration
          "display geometry 255x255 is not usable"), s.run events) := by
  have hm : make 255 1 = .ok _ := rfl
  have ⟨whole, answer, _, refused⟩ := within_bounds hm
    [.setCursor 255 255, .put 0x78, .resize 255 255, .echo (.plain erase)]
  exact ⟨_, rfl, rfl, whole, answer, refused 255 255 (.inr (by decide))⟩

end RemoteScreen.Screen

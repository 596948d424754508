import Mathlib.Data.List.Forall2
import RemoteScreen.Proofs.Mirror.Completion

namespace RemoteScreen

-- A character that draws something, or the plain blank.
def IsPlain (c : Char) : Prop :=
  0x20 ≤ c.toNat ∧ c.toNat ≤ 0x7e

instance (c : Char) : Decidable (IsPlain c) :=
  inferInstanceAs <| Decidable (_ ∧ _)

namespace Replica

variable {r : Replica} {octets : Octets} {line : List Char} {width rows : Nat} {row col : UInt8}

theorem plain_glyph (o : UInt8) : IsPlain (glyph o) := by
  rw [glyph]
  split
  case isFalse => decide
  case isTrue h =>
    have ho : (Char.ofNat o.toNat).toNat = o.toNat := by
      have := o.toNat_lt
      have hv : o.toNat.isValidChar := .inl (by omega)
      rw [Char.ofNat, dif_pos hv]
      rfl
    rw [IsPlain, ho]
    exact h

theorem length_glyphs (octets : Octets) : (glyphs octets).length = octets.length / cellWidth := by
  fun_induction glyphs octets
  case case1 hi =>
    simp [hi, cellWidth]
    omega
  case case2 octets h =>
    match octets, h with
    | [], _ | [_], _ => simp [cellWidth]
    | a :: b :: rest, h => exact absurd rfl (h a b rest)

theorem plain_of_mem_glyphs {c : Char} (h : c ∈ glyphs octets) : IsPlain c := by
  fun_induction glyphs octets <;> simp at h
  case case1 hi =>
    cases h
    case inl h => exact h ▸ plain_glyph _
    case inr h => exact hi h

-- A cell whose two octets are there is drawn by the first of them.
theorem getElem?_glyphs {i : Nat} (h : i * cellWidth + 1 < octets.length) :
    (glyphs octets)[i]? = octets[i * cellWidth]?.map glyph := by
  fun_induction glyphs octets generalizing i
  case case1 hi =>
    cases i
    case zero   => simp
    case succ i => simp [cellWidth, Nat.succ_mul] at hi h ⊢; exact hi (by omega)
  case case2 octets hn =>
    match octets, hn with
    | [], _ | [_], _ => simp at h
    | a :: b :: rest, hn => exact absurd rfl (hn a b rest)

theorem linesOf_nil (width : Nat) : linesOf width [] = [] := by
  simp [linesOf]

theorem linesOf_of_ne (ho : octets ≠ []) (hw : width ≠ 0) :
    linesOf width octets = glyphs (octets.take width) :: linesOf width (octets.drop width) := by
  rw [linesOf, dif_neg (by simp [ho, hw])]

-- By induction on the rows.
theorem linesOf_eq (hw : width ≠ 0) (h : octets.length = rows * width) :
    linesOf width octets
      = (List.range rows).map fun row => glyphs ((octets.drop (row * width)).take width) := by
  induction rows generalizing octets
  case zero =>
    have ho : octets = [] := by simpa using h
    simp [ho, linesOf_nil]
  case succ rows hi =>
    have ho : octets ≠ [] := by
      intro ho
      simp [ho, Nat.succ_mul] at h
      omega
    have hd : (octets.drop width).length = rows * width := by
      simp [h, Nat.succ_mul]
    rw [linesOf_of_ne ho hw, hi hd, List.range_succ_eq_map]
    simp [Nat.succ_mul, Nat.add_comm]

namespace WellFormed

theorem lines_eq_nil (h : r.WellFormed) (hc : r.cols = 0) : r.lines = [] := by
  have hl : r.cells.length = 0 := by
    rw [h, hc]
    simp
  rw [lines, List.eq_nil_of_length_eq_zero hl, linesOf_nil]

theorem lines_eq (h : r.WellFormed) (hc : r.cols ≠ 0) :
    r.lines = (List.range r.rows.toNat).map fun row =>
      glyphs ((r.cells.drop (row * (r.cols.toNat * cellWidth))).take
        (r.cols.toNat * cellWidth)) := by
  have hw : 0 < r.cols.toNat * cellWidth :=
    Nat.mul_pos (Nat.pos_of_ne_zero fun h => hc (UInt8.toNat_inj.mp h)) (by decide)
  rw [lines, Nat.max_eq_left hw, linesOf_eq (Nat.ne_of_gt hw)]
  rw [h, Nat.mul_assoc]

theorem length_lines (h : r.WellFormed) :
    r.lines.length = if r.cols = 0 then 0 else r.rows.toNat := by
  split
  case isTrue hc  => simp [h.lines_eq_nil hc]
  case isFalse hc => simp [h.lines_eq hc]

-- The octets of a whole row lie within the cells.
theorem row_le (h : r.WellFormed) {row : Nat} (hr : row < r.rows.toNat) :
    row * (r.cols.toNat * cellWidth) + r.cols.toNat * cellWidth ≤ r.cells.length := by
  rw [h, Nat.mul_assoc, ← Nat.succ_mul]
  exact Nat.mul_le_mul_right _ hr

theorem cell_lt (h : r.WellFormed) (hr : row < r.rows) (hc : col < r.cols) :
    (row.toNat * r.cols.toNat + col.toNat) * cellWidth + 1 < r.cells.length := by
  have hr : row.toNat < r.rows.toNat := hr
  have hc : col.toNat < r.cols.toNat := hc
  have hl := h.row_le hr
  rw [← Nat.mul_assoc] at hl
  simp only [cellWidth, Nat.add_mul] at hl ⊢
  omega

theorem length_line (h : r.WellFormed) (hl : line ∈ r.lines) : line.length = r.cols.toNat := by
  by_cases hc : r.cols = 0
  case pos => simp [h.lines_eq_nil hc] at hl
  case neg =>
    rw [h.lines_eq hc] at hl
    have ⟨row, hr, he⟩ := List.mem_map.mp hl
    have hl := h.row_le (List.mem_range.mp hr)
    rw [← he, length_glyphs, List.length_take, List.length_drop, Nat.min_eq_left (by omega)]
    simp [cellWidth]

theorem plain_line (h : r.WellFormed) (hl : line ∈ r.lines) : ∀ c ∈ line, IsPlain c := by
  by_cases hc : r.cols = 0
  case pos => simp [h.lines_eq_nil hc] at hl
  case neg =>
    rw [h.lines_eq hc] at hl
    have ⟨_, _, he⟩ := List.mem_map.mp hl
    exact fun c hm => plain_of_mem_glyphs (he ▸ hm)

theorem cell?_eq (h : r.WellFormed) (hr : row < r.rows) (hc : col < r.cols) :
    ∃ h : (row.toNat * r.cols.toNat + col.toNat) * cellWidth + 1 < r.cells.length,
      r.cell? row col = some
        (r.cells[(row.toNat * r.cols.toNat + col.toNat) * cellWidth],
          r.cells[(row.toNat * r.cols.toNat + col.toNat) * cellWidth + 1]) := by
  have hl := h.cell_lt hr hc
  refine ⟨hl, ?_⟩
  rw [cell?, if_pos ⟨hr, hc⟩, List.drop_eq_getElem_cons (by omega), List.drop_eq_getElem_cons hl]

-- What stands at a place of a line is the character of the cell there.
theorem getElem?_lines (h : r.WellFormed) (hr : row < r.rows) (hc : col < r.cols) :
    r.lines[row.toNat]? >>= (·[col.toNat]?) = (r.cell? row col).map fun cell => glyph cell.1 := by
  have hn : r.cols ≠ 0 := fun hn => by simp [hn] at hc
  have ⟨hs, he⟩ := h.cell?_eq hr hc
  have hr : row.toNat < r.rows.toNat := hr
  have hc : col.toNat < r.cols.toNat := hc
  have hl := h.row_le hr
  have hw : col.toNat * cellWidth + 1 < r.cols.toNat * cellWidth := by
    simp only [cellWidth]
    omega
  have hg : col.toNat * cellWidth + 1 <
      ((r.cells.drop (row.toNat * (r.cols.toNat * cellWidth))).take
        (r.cols.toNat * cellWidth)).length := by
    rw [List.length_take, List.length_drop]
    omega
  have hp : (row.toNat * r.cols.toNat + col.toNat) * cellWidth
      = row.toNat * (r.cols.toNat * cellWidth) + col.toNat * cellWidth := by
    rw [Nat.add_mul, Nat.mul_assoc]
  rw [he, h.lines_eq hn]
  simp [hr, getElem?_glyphs hg, List.getElem?_take_of_lt (Nat.lt_of_succ_lt hw), ← hp,
    Nat.lt_of_succ_lt hs]

end WellFormed

end Replica

-- The second line is the first without the blanks at its end.
structure Trims (line shown : List Char) : Prop where
  blanks : ∃ count, line = shown ++ List.replicate count ' '
  last   : shown.getLast? ≠ some ' '

theorem Hexadecimal.plain_octet (o : UInt8) : ∀ c ∈ octet o, IsPlain c := by
  have hd : ∀ n < 16, IsPlain (Nat.digitChar n) := by
    decide
  have := o.toNat_lt
  simp only [octet, List.forall_mem_cons]
  exact ⟨hd _ (by omega), hd _ (by omega), nofun⟩

theorem Identity.plain_text (i : Identity) : ∀ c ∈ i.text.toList, IsPlain c := by
  have hc : IsPlain ':' := by
    decide
  simp [text, octets, List.intercalate_cons_cons, or_imp, forall_and, hc]
  exact ⟨Hexadecimal.plain_octet _, Hexadecimal.plain_octet _, Hexadecimal.plain_octet _,
    Hexadecimal.plain_octet _, Hexadecimal.plain_octet _, Hexadecimal.plain_octet _⟩

theorem plain_numeral (n : Nat) : ∀ c ∈ (toString n).toList, IsPlain c := by
  intro c hc
  have hm : c ∈ Nat.toDigits 10 n := by
    rwa [← Nat.toList_repr]
  have hd : c.isDigit := Nat.isDigit_of_mem_toDigits (by decide) (by decide) hm
  have hn : 0x30 ≤ c.toNat ∧ c.toNat ≤ 0x39 := Char.isDigit_iff_toNat.mp hd
  rw [IsPlain]
  omega

namespace Viewer

variable {v : Viewer}

theorem trims_trimEnd (line : List Char) : Trims line (trimEnd line) := by
  let blank (c : Char) : Bool := c = ' '
  constructor
  case blanks =>
    have hb : line.reverse.takeWhile blank
        = List.replicate (line.reverse.takeWhile blank).length ' ' := by
      apply List.eq_replicate_of_mem
      intro c hc
      simpa [blank] using List.all_eq_true.mp List.all_takeWhile c hc
    refine ⟨(line.reverse.takeWhile blank).length, ?_⟩
    rw [← List.reverse_replicate, ← hb, trimEnd, ← List.reverse_append,
      List.takeWhile_append_dropWhile, List.reverse_reverse]
  case last =>
    rw [trimEnd, List.getLast?_reverse]
    intro hl
    have := List.head?_dropWhile_not blank line.reverse
    rw [hl] at this
    simp [blank] at this

theorem forall₂_trims (lines : List (List Char)) :
    List.Forall₂ Trims lines (lines.map trimEnd) := by
  rw [List.forall₂_map_right_iff, List.forall₂_same]
  exact fun line _ => trims_trimEnd line

-- The viewer after all the frames.
def takeFrames (v : Viewer) (frames : List Frame) : Viewer :=
  frames.foldl (fun v frame => (v.onFrame frame).2) v

-- The status line is made of numbers, the server's name and the program's own text.
theorem plain_statusLine (v : Viewer) : ∀ c ∈ v.statusLine, IsPlain c ∨ c = '─' := by
  have hn (n : Nat) : ∀ c ∈ (toString n).toList, IsPlain c ∨ c = '─' :=
    fun c hc => .inl (plain_numeral n c hc)
  have ht : ∀ c ∈ v.target.text.toList, IsPlain c ∨ c = '─' :=
    fun c hc => .inl (v.target.plain_text c hc)
  simp only [statusLine, String.toList_append, List.forall_mem_append, and_assoc]
  refine ⟨?_, ht, ?_, hn _, ?_, hn _, ?_, hn _, ?_, hn _, ?_⟩ <;> simp [IsPlain, toString]

theorem stays_takeFrames (v : Viewer) (frames : List Frame) : v.Stays (v.takeFrames frames) := by
  induction frames generalizing v
  case nil => exact ⟨rfl, rfl, id⟩
  case cons f fs hi =>
    have now := v.stays_onFrame f
    have later := hi (v.onFrame f).2
    exact ⟨later.target.trans now.target, later.nonce.trans now.nonce, later.mirror ∘ now.mirror⟩

theorem plain_trimEnd {line : List Char} (h : ∀ c ∈ line, IsPlain c) :
    ∀ c ∈ trimEnd line, IsPlain c := by
  have ⟨_, hb⟩ := (trims_trimEnd line).blanks
  rw [hb] at h
  exact fun c hc => h c (List.mem_append_left _ hc)

theorem plain_render (h : v.replica.WellFormed) :
    ∀ c ∈ v.render.toList, IsPlain c ∨ c = '─' ∨ c = '\n' := by
  intro c hc
  rw [render, String.toList_ofList] at hc
  have ⟨line, hl, hc⟩ := List.mem_flatMap.mp hc
  cases List.mem_append.mp hc
  case inr hc => exact .inr (.inr (List.mem_singleton.mp hc))
  case inl hc =>
    cases List.mem_cons.mp hl
    case inl he => exact (v.plain_statusLine c (he ▸ hc)).imp_right .inl
    case inr hl =>
      have ⟨_, hl, he⟩ := List.mem_map.mp hl
      exact .inl (plain_trimEnd (h.plain_line hl) c (he ▸ hc))

-- The viewer's replica has all the cells of its shape, and all that a page shows of them is
-- printable.
structure Legible (v : Viewer) : Prop where
  size    : v.replica.cells.length = v.replica.rows.toNat * v.replica.cols.toNat * cellWidth
  inside  : ∀ {row col}, row < v.replica.rows → col < v.replica.cols →
    ∃ h : (row.toNat * v.replica.cols.toNat + col.toNat) * cellWidth + 1 < v.replica.cells.length,
      v.replica.cell? row col = some
        (v.replica.cells[(row.toNat * v.replica.cols.toNat + col.toNat) * cellWidth],
          v.replica.cells[(row.toNat * v.replica.cols.toNat + col.toNat) * cellWidth + 1])
  outside : ∀ {row col}, ¬(row < v.replica.rows ∧ col < v.replica.cols) →
    v.replica.cell? row col = none
  count   : v.replica.lines.length = if v.replica.cols = 0 then 0 else v.replica.rows.toNat
  width   : ∀ line ∈ v.replica.lines, line.length = v.replica.cols.toNat
  plain   : ∀ line ∈ v.replica.lines, ∀ c ∈ line, IsPlain c
  drawn   : ∀ {row col}, row < v.replica.rows → col < v.replica.cols →
    v.replica.lines[row.toNat]? >>= (·[col.toNat]?)
      = (v.replica.cell? row col).map fun cell => Replica.glyph cell.1
  page    : ∃ shown, List.Forall₂ Trims v.replica.lines shown ∧
    v.render.toList = (v.statusLine :: shown).flatMap (· ++ ['\n'])
  status  : ∀ c ∈ v.statusLine, IsPlain c ∨ c = '─'
  text    : ∀ c ∈ v.render.toList, IsPlain c ∨ c = '─' ∨ c = '\n'

theorem legible_takeFrames (target : Identity) (nonce : UInt32) (frames : List Frame) :
    (takeFrames ⟨target, nonce, {}, 0⟩ frames).Legible := by
  let v := takeFrames ⟨target, nonce, {}, 0⟩ frames
  have h : v.replica.WellFormed :=
    ((stays_takeFrames ⟨target, nonce, {}, 0⟩ frames).mirror .blank).wellFormed
  exact {
    size    := h
    inside  := h.cell?_eq
    outside := fun hn => if_neg hn
    count   := h.length_lines
    width   := fun _ => h.length_line
    plain   := fun _ => h.plain_line
    drawn   := h.getElem?_lines
    page    := ⟨_, forall₂_trims v.replica.lines, String.toList_ofList⟩
    status  := v.plain_statusLine
    text    := v.plain_render h
  }

end Viewer

end RemoteScreen

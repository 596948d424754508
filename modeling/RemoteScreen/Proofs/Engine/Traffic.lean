import RemoteScreen.Proofs.Engine.Pass
import RemoteScreen.Proofs.Mirror.Validity

namespace RemoteScreen.Engine

variable {σ : Type} [Host σ] {e : Engine σ} {d : Display} {events : List (Event σ)}

-- The link is called on in the tick.
def transmits (e : Engine σ) : Bool :=
  !(e.handed [.tick]).isEmpty

-- Ticks that the pass under way still takes.
def remaining (e : Engine σ) (s : DisplayState) : Nat :=
  if rowAfter s.rows.toNat e.scanRow = 0 then 0
  else portions (e.chunkRows s) (s.rows.toNat - e.scanRow)

-- Ticks of the pass that is due after it.
def coming (e : Engine σ) (d : Display) : Nat :=
  if e.lastChecksum = some d.regionChecksum then 0 else e.passLength d.state

-- Ticks that may still send something, if the display stays as it is.
def allowance (e : Engine σ) (d : Display) : Nat :=
  e.remaining d.state + e.coming d

omit [Host σ] in
theorem remaining_of_top (h : e.scanRow = 0) (s : DisplayState) : e.remaining s = 0 := by
  have ht : rowAfter s.rows.toNat e.scanRow = 0 := by
    simp [h, rowAfter]
  rw [remaining, if_pos ht]

omit [Host σ] in
theorem remaining_le (e : Engine σ) (s : DisplayState) :
    e.remaining s ≤ portions (e.chunkRows s) (s.rows.toNat - e.scanRow) := by
  rw [remaining]
  split <;> simp

omit [Host σ] in
theorem coming_le (e : Engine σ) (d : Display) : e.coming d ≤ e.passLength d.state := by
  rw [coming]
  split <;> simp

-- The rows of a chunk are one tick's worth.
omit [Host σ] in
theorem remaining_after {first rows : Nat} {s : DisplayState} (hf : first < s.rows.toNat)
    (hr : rows = min (e.chunkRows s) (s.rows.toNat - first))
    (hs : e.scanRow = rowAfter s.rows.toNat (first + rows)) :
    e.remaining s + 1 ≤ portions (e.chunkRows s) (s.rows.toNat - first) := by
  have hk := e.chunkRows_pos s
  by_cases hl : first + e.chunkRows s < s.rows.toNat
  case pos =>
    have hn : e.scanRow = first + e.chunkRows s := by
      rw [hs, hr, Nat.min_eq_left (by omega), rowAfter_of_lt hl]
    have hp := portions_sub hk (Nat.sub_pos_of_lt hf)
    have hm := e.remaining_le s
    rw [hn, ← Nat.sub_sub] at hm
    omega
  case neg =>
    have ht : e.scanRow = 0 := by
      rw [hs]
      apply rowAfter_of_le
      omega
    rw [remaining_of_top ht, Nat.zero_add]
    exact portions_pos hk (Nat.sub_pos_of_lt hf)

theorem lastChecksum_sendChunk (e : Engine σ) (d : Display) :
    (e.sendChunk d).2.lastChecksum = e.lastChecksum := by
  by_cases h : headerLength + (chunkHeaderLength + e.nextRows d.state * d.state.rowLength)
      ≤ e.buffer.length
  case pos =>
    have ⟨_, _, hc⟩ := sendChunk_eq d h
    have ⟨_, _, hs⟩ := hc e.host
    have hs : e.sendChunk d = _ := hs
    rw [hs]
    rfl
  case neg => rw [sendChunk_of_short d (Nat.lt_of_not_le h)]

theorem lastChecksum_stream (e : Engine σ) (d : Display) :
    (e.stream d).2.lastChecksum = e.lastChecksum ∨
      (e.stream d).2.lastChecksum = some d.regionChecksum := by
  obtain ⟨_, _, hs⟩ | ⟨_, _, hl, hs⟩ := e.stream_cases d <;> rw [hs]
  case inl => exact .inl rfl
  case inr => rwa [lastChecksum_sendChunk]

-- Whatever a tick finds, it takes note of the checksum of the display or of none.
theorem lastChecksum_tick_cases (e : Engine σ) :
    e.tick.2.lastChecksum = e.lastChecksum ∨
      e.tick.2.lastChecksum = some (Host.display e.host).regionChecksum := by
  simp only [tick]
  split
  case isTrue  => exact .inl rfl
  case isFalse => exact e.reap.lastChecksum_stream _

omit [Host σ] in
theorem coming_mono {e' : Engine σ} (c : e.Continues e')
    (h : e'.lastChecksum = e.lastChecksum ∨ e'.lastChecksum = some d.regionChecksum) :
    e'.coming d ≤ e.coming d := by
  rw [coming, coming, c.passLength]
  cases h
  case inl h => rw [h]
  case inr h => simp [h]

theorem Due.control_tick (due : e.Due d) (room : e.HasRoom) (h : Host.display e.host = d) :
    (e.step .tick).control =
      { (e.admitted d).control with
        scanRow := rowAfter d.state.rows.toNat
          ((e.admitted d).scanRow + (e.admitted d).nextRows d.state) } := by
  have ⟨_, _, _, _, _, hn⟩ := sendChunk_cases (e := e.admitted d) room d
  rw [← due.tick_eq h] at hn
  exact hn

-- The pass has a tick less to take.
theorem Due.remaining_tick (due : e.Due d) (room : e.HasRoom) (h : Host.display e.host = d) :
    (e.step .tick).remaining d.state + 1
      ≤ portions (e.chunkRows d.state) (d.state.rows.toNat - (e.admitted d).scanRow) := by
  have c := e.continues_step .tick
  have hf : (e.admitted d).scanRow < d.state.rows.toNat :=
    rowAfter_lt due.streamable.rows_pos _
  have hr : (e.admitted d).nextRows d.state
      = min ((e.step .tick).chunkRows d.state) (d.state.rows.toNat - (e.admitted d).scanRow) :=
    c.chunkRows d.state ▸ rfl
  have hs := congrArg Control.scanRow (due.control_tick room h)
  rw [← c.chunkRows]
  exact remaining_after hf hr hs

-- A pass that is under way is allowed for. So is one that begins, and no other is due after it.
theorem Due.portions_le_allowance (due : e.Due d) (room : e.HasRoom)
    (h : Host.display e.host = d) :
    portions (e.chunkRows d.state) (d.state.rows.toNat - (e.admitted d).scanRow)
      + (e.step .tick).coming d ≤ e.allowance d := by
  have c := e.continues_step .tick
  let first := rowAfter d.state.rows.toNat e.scanRow
  have hf : (e.admitted d).scanRow = first := rfl
  rw [hf]
  by_cases ht : first = 0
  case pos =>
    have hl : e.lastChecksum ≠ some d.regionChecksum := fun hl => due.changed ⟨ht, hl⟩
    have hk : (e.step .tick).lastChecksum = some d.regionChecksum :=
      (congrArg Control.lastChecksum (due.control_tick room h)).trans <| if_pos ht
    have hz : (e.step .tick).coming d = 0 := by
      rw [coming, if_pos hk]
    rw [hz, ht, allowance, coming, if_neg hl]
    exact Nat.le_add_left ..
  case neg =>
    have hs : first = e.scanRow := by
      simp only [first, rowAfter] at ht ⊢
      split <;> simp_all
    have hr : e.remaining d.state
        = portions (e.chunkRows d.state) (d.state.rows.toNat - first) := by
      rw [remaining, if_neg ht, hs]
    rw [allowance, hr]
    exact Nat.add_le_add_left (coming_mono c (h ▸ e.lastChecksum_tick_cases)) _

-- What a tick spends is taken off the allowance. A pass that is given up is not made up for.
theorem allowance_tick (room : e.HasRoom) (h : Host.display e.host = d) :
    (if e.transmits then 1 else 0) + (e.step .tick).allowance d ≤ e.allowance d := by
  obtain rests | due := rests_or_due h
  case inl =>
    have hq : ¬ e.transmits := by
      simp [transmits, rests.handed]
    have hr : (e.step .tick).remaining d.state = 0 := remaining_of_top rests.scanRow _
    have hc := coming_mono (e.continues_step .tick) (h ▸ e.lastChecksum_tick_cases)
    rw [if_neg hq, allowance, allowance, hr]
    omega
  case inr =>
    have hu : (if e.transmits then 1 else 0) ≤ 1 := by
      split <;> omega
    have spent := due.remaining_tick room h
    have allowed := due.portions_le_allowance room h
    rw [allowance]
    omega

theorem allowance_wait {event : Event σ} (ht : event ≠ .tick) (h : e.creates? event = none)
    (d : Display) : (e.step event).allowance d = e.allowance d := by
  have c := e.continues_step event
  have hs := (e.waits_step ht).scanRow
  have hl := lastChecksum_of_created ht h
  simp only [allowance, remaining, coming, c.chunkRows, c.passLength, hs, hl]

-- By induction on the events: what the ticks have spent and what is left is no more than there was.
theorem allowance_run (room : e.HasRoom)
    (static : ∀ x ∈ e.ticked events, Host.display x.host = d) (hc : e.created events = []) :
    (e.ticked events).countP transmits + (e.run events).allowance d ≤ e.allowance d := by
  induction events generalizing e
  case nil => simp [ticked, run]
  case cons event rest hi =>
    obtain ⟨hq, hc⟩ := created_cons.mp hc
    have room' : (e.step event).HasRoom := room.continue (e.continues_step event)
    by_cases ht : event = .tick
    case pos =>
      subst ht
      have now := allowance_tick room (static e (.head _))
      have later := hi room' (fun x hx => static x (.tail _ hx)) hc
      have hr : e.run (.tick :: rest) = (e.step .tick).run rest := rfl
      rw [ticked, List.countP_cons, hr]
      omega
    case neg =>
      rw [ticked_cons ht] at static ⊢
      rw [← allowance_wait ht hq d]
      exact hi room' static hc

-- However long it goes on, a screen that stands still costs the rest of one pass and one pass more.
theorem static_traffic (reachable : e.Reachable)
    (static : ∀ x ∈ e.ticked events, Host.display x.host = d) (hc : e.created events = []) :
    let size := e.config.rowsPerChunk d.state.cols.toNat
    (e.ticked events).countP transmits ≤
      portions size (d.state.rows.toNat - e.scanRow) + portions size d.state.rows.toNat := by
  intro size
  have hs := allowance_run reachable.hasRoom static hc
  have hr := e.remaining_le d.state
  have hp := e.coming_le d
  rw [allowance] at hs
  exact Nat.le_trans (Nat.le_of_add_right_le hs) (Nat.add_le_add hr hp)

-- Two ticks with a ping between them send the two chunks of the screen.
theorem static_traffic_bench :
    Sample.engine.created (Sample.pinged ++ [.tick]) = [] ∧
      (Sample.engine.ticked (Sample.pinged ++ [.tick])).countP transmits = 2 ∧
      (Sample.engine.ticked (Sample.pinged ++ [.tick])).countP transmits ≤
        portions 1 (2 - 0) + portions 1 2 := by
  have static : Smooth (fun x => Host.display x.host = Sample.screen.display) Sample.engine
      (Sample.pinged ++ [.tick]) := by
    apply Sample.smooth
    intro x hx
    exact congrArg Host.display (Sample.host_eq hx)
  have hc : Sample.engine.created (Sample.pinged ++ [.tick]) = [] := by
    decide +kernel
  have bound := static_traffic Sample.reachable static.ticks hc
  have hk : Sample.engine.config.rowsPerChunk 128 = 1 := by
    decide +kernel
  refine ⟨hc, by decide +kernel, ?_⟩
  rw [← hk, ← Sample.top]
  exact bound

end RemoteScreen.Engine

import RemoteScreen.Proofs.Engine.Run
import RemoteScreen.Proofs.Mirror.Portion

namespace RemoteScreen.Engine

variable {σ : Type} [Host σ] {e : Engine σ} {d : Display} {cells : Octets} {i : Nat}
  {events : List (Event σ)}

-- The rows of a full chunk of a display in this state.
def chunkRows (e : Engine σ) (s : DisplayState) : Nat :=
  e.config.rowsPerChunk s.cols.toNat

omit [Host σ] in
theorem chunkRows_pos (e : Engine σ) (s : DisplayState) : 0 < e.chunkRows s :=
  e.config.rowsPerChunk_pos _

-- The ticks of a pass over such a display.
def passLength (e : Engine σ) (s : DisplayState) : Nat :=
  portions (e.chunkRows s) s.rows.toNat

omit [Host σ] in
theorem Continues.chunkRows {e' : Engine σ} (c : e.Continues e') (s : DisplayState) :
    e'.chunkRows s = e.chunkRows s :=
  congrArg (EngineConfig.rowsPerChunk · _) c.config

omit [Host σ] in
theorem Continues.passLength {e' : Engine σ} (c : e.Continues e') (s : DisplayState) :
    e'.passLength s = e.passLength s :=
  congrArg (portions · _) (c.chunkRows s)

-- So many ticks of a pass over the display are behind the engine.
structure Passing (e : Engine σ) (d : Display) (i : Nat) : Prop where
  room    : e.HasRoom
  scanRow : e.scanRow = rowAfter d.state.rows.toNat (i * e.chunkRows d.state)
  due     : i = 0 → e.lastChecksum ≠ some d.regionChecksum

-- A pass that is due starts at the top.
omit [Host σ] in
theorem passing_zero (room : e.HasRoom) (streamable : d.state.Streamable) (top : e.scanRow = 0)
    (due : e.lastChecksum ≠ some d.regionChecksum) : e.Passing d 0 where
  room    := room
  scanRow := by rw [top, Nat.zero_mul, rowAfter_of_lt streamable.rows_pos]
  due _   := due

omit [Host σ] in
theorem Passing.wait {e' : Engine σ} (p : e.Passing d i) (w : e.Waits e') (c : e.Continues e') :
    e'.Passing d i where
  room    := p.room.continue c
  scanRow := by rw [w.scanRow, c.chunkRows, p.scanRow]
  due h   := w.due (p.due h)

-- A tick in the course of a pass sends the next portion of the display.
theorem Passing.sends (p : e.Passing d i) (h : Host.display e.host = d) (fills : d.Fills)
    (streamable : d.state.Streamable) (live : e.reap.sessions.active ≠ [])
    (hi : i < e.passLength d.state) :
    ∃ ts, e.Sends d (i * e.chunkRows d.state)
      (min (e.chunkRows d.state) (d.state.rows.toNat - i * e.chunkRows d.state)) ts := by
  have hl := (lt_portions <| e.chunkRows_pos d.state).mp hi
  have hs : rowAfter d.state.rows.toNat e.scanRow = i * e.chunkRows d.state := by
    rw [p.scanRow, rowAfter_of_lt hl, rowAfter_of_lt hl]
  obtain idles | skips | ⟨first, rows, ts, sends⟩ := tick_cases p.room h fills streamable
  · exact absurd idles.sessions live
  · have hz : i = 0 := by
      have := skips.top
      rw [hs] at this
      exact (Nat.mul_eq_zero.mp this).resolve_right (Nat.ne_of_gt <| e.chunkRows_pos d.state)
    exact absurd skips.checksum (p.due hz)
  · have hf := sends.begins.trans hs
    have hr := sends.spans
    subst hf
    exact ⟨ts, hr ▸ sends⟩

theorem Sends.scanRow_portion {ts : List Transmission} (s : e.Sends d (i * e.chunkRows d.state)
      (min (e.chunkRows d.state) (d.state.rows.toNat - i * e.chunkRows d.state)) ts)
    (hi : i < e.passLength d.state) :
    e.tick.2.scanRow = rowAfter d.state.rows.toNat ((i + 1) * e.chunkRows d.state) := by
  have hl := (lt_portions <| e.chunkRows_pos d.state).mp hi
  rw [s.scanRow, Display.portion_end hl, rowAfter, rowAfter]
  split <;> split <;> omega

theorem Passing.tick (p : e.Passing d i) (h : Host.display e.host = d) (fills : d.Fills)
    (streamable : d.state.Streamable) (live : e.reap.sessions.active ≠ [])
    (hi : i < e.passLength d.state) : (e.step .tick).Passing d (i + 1) := by
  have c := e.continues_step .tick
  have ⟨_, s⟩ := p.sends h fills streamable live hi
  refine ⟨p.room.continue c, ?_, by simp⟩
  rw [c.chunkRows]
  exact s.scanRow_portion hi

-- The display stands still, and there always is someone to send it to.
def Watched (d : Display) (e : Engine σ) : Prop :=
  Host.display e.host = d ∧ ∃ identity nonce, e.Serves identity nonce

theorem Watched.live (w : Watched d e) : e.reap.sessions.active ≠ [] :=
  have ⟨_, _, hs⟩ := w.right
  hs.active_ne_nil

variable (fills : d.Fills) (streamable : d.state.Streamable)

-- The induction is on the events. Whatever comes between two ticks of a pass leaves the pass where
-- it is.
include fills streamable in
theorem Passing.run (p : e.Passing d i) (smooth : Smooth (Watched d) e events)
    (hn : i + ticks events ≤ e.passLength d.state) :
    (e.run events).Passing d (i + ticks events) := by
  induction events generalizing e i
  case nil => exact p
  case cons event rest hi =>
    have c := e.continues_step event
    rw [← c.passLength] at hn
    by_cases ht : event = .tick
    case pos =>
      subst ht
      have watched := smooth.head.tick
      have hl : i < e.passLength d.state := by
        rw [c.passLength, ticks] at hn
        omega
      have p' := p.tick watched.left fills streamable watched.live hl
      rw [ticks, Nat.add_left_comm, Nat.add_comm] at hn ⊢
      exact hi p' smooth.tail hn
    case neg =>
      rw [ticks_cons ht] at hn ⊢
      exact hi (p.wait (e.waits_step ht) c) smooth.tail hn

-- With no new session on the way, the checksum is the one noted when the pass began.
include fills streamable in
theorem Passing.lastChecksum_run (p : e.Passing d i) (smooth : Smooth (Watched d) e events)
    (hn : i + ticks events ≤ e.passLength d.state) (hc : e.created events = [])
    (noted : 0 < i → e.lastChecksum = some d.regionChecksum) (hp : 0 < i + ticks events) :
    (e.run events).lastChecksum = some d.regionChecksum := by
  induction events generalizing e i
  case nil => exact noted hp
  case cons event rest hi =>
    have c := e.continues_step event
    obtain ⟨hq, hc⟩ := created_cons.mp hc
    rw [← c.passLength] at hn
    by_cases ht : event = .tick
    case pos =>
      subst ht
      have watched := smooth.head.tick
      have hl : i < e.passLength d.state := by
        rw [c.passLength, ticks] at hn
        omega
      have p' := p.tick watched.left fills streamable watched.live hl
      obtain ⟨_, s⟩ := p.sends watched.left fills streamable watched.live hl
      rw [ticks, Nat.add_left_comm, Nat.add_comm] at hn hp
      refine hi p' smooth.tail hn hc (fun _ => ?_) hp
      refine s.lastChecksum.trans ?_
      split
      · rfl
      · rename_i hz
        exact noted <| Nat.pos_of_ne_zero fun hi => hz (by rw [hi, Nat.zero_mul])
    case neg =>
      rw [ticks_cons ht] at hn hp
      refine hi (p.wait (e.waits_step ht) c) smooth.tail hn hc (fun h => ?_) hp
      rw [lastChecksum_of_created ht hq]
      exact noted h

-- What the `i`-th tick of a pass gives its caller, leaves in the engine and hands to the link.
structure PassTick (e : Engine σ) (d : Display) (i : Nat) : Prop where
  outcome : ∃ delivered, e.tick.1 = .ok (.sent (i * e.chunkRows d.state)
    (min (e.chunkRows d.state) (d.state.rows.toNat - i * e.chunkRows d.state)) delivered)
  scanRow : e.tick.2.scanRow = 0 ↔ i + 1 = e.passLength d.state
  hands   : e.handed [.tick] ≠ []
  chunks  : ∀ t ∈ e.handed [.tick], ∃ frame, Codec.read? ⟨e.config.ethertype⟩ t.frame = some frame ∧
    frame.kind = .screenChunk ∧ Chunk.parse frame.payload = .ok (d.portion (e.chunkRows d.state) i)

-- The tick finds the screen as it was and does nothing.
structure QuietTick (e : Engine σ) : Prop where
  outcome : e.tick.1 = .ok .unchanged
  hands   : e.handed [.tick] = []

include fills streamable in
theorem Passing.passTick (p : e.Passing d i) (smooth : Smooth (Watched d) e [.tick])
    (hi : i < e.passLength d.state) : e.PassTick d i := by
  have watched := smooth.tick
  obtain ⟨ts, s⟩ := p.sends watched.left fills streamable watched.live hi
  have hl := (lt_portions <| e.chunkRows_pos d.state).mp hi
  refine ⟨⟨ts.length, ?outcome⟩, ?scanRow, ?hands, ?chunks⟩
  case outcome =>
    apply s.offers.outcome
    rw [← s.handed]
    exact smooth.sends
  case scanRow =>
    have hn : i + 1 < e.passLength d.state ↔ (i + 1) * e.chunkRows d.state < d.state.rows.toNat :=
      lt_portions <| e.chunkRows_pos d.state
    have hk := e.chunkRows_pos d.state
    have hp : 0 < (i + 1) * e.chunkRows d.state := Nat.mul_pos (Nat.succ_pos i) hk
    rw [s.scanRow_portion hi, rowAfter]
    split <;> omega
  case hands =>
    rw [s.handed]
    exact Transmission.ne_nil_of_frames s.offers.frames s.sessions
  case chunks =>
    intro t ht
    rw [s.handed] at ht
    obtain ⟨session, hf⟩ := s.frame ht
    have hc := Display.length_cells_chunk fills (i * e.chunkRows d.state)
      (min (e.chunkRows d.state) (d.state.rows.toNat - i * e.chunkRows d.state))
    let f := (d.portion (e.chunkRows d.state) i).framed e.identity e.config.ethertype
      session.identity session.nonce
    refine ⟨f, ?_, rfl, Display.parse_chunk fills streamable (s.within streamable)⟩
    · rw [hf]
      apply Chunk.read?_framed
      rw [hc]
      exact s.length_le

theorem full_pass (reachable : e.Reachable) (shows : d.Shows cells)
    (streamable : d.state.Streamable) (top : e.scanRow = 0)
    (due : e.lastChecksum ≠ some d.regionChecksum)
    (smooth : Smooth (Watched d) e (events ++ [.tick])) :
    Tiles (d.portion <| e.chunkRows d.state) (e.passLength d.state) cells ∧
    (ticks events < e.passLength d.state → (e.run events).PassTick d (ticks events)) ∧
    (ticks events = e.passLength d.state → e.created events = [] → (e.run events).QuietTick) := by
  have c := e.continues_run events
  have p := passing_zero reachable.hasRoom streamable top due
  refine ⟨Display.tiles_portions shows streamable (e.chunkRows_pos d.state), ?pass, ?quiet⟩
  case pass =>
    intro hi
    have p := p.run shows.fills streamable smooth.left (by omega)
    rw [Nat.zero_add] at p
    rw [← c.passLength] at hi
    exact p.passTick shows.fills streamable smooth.right hi
  case quiet =>
    intro hi hc
    have hn := p.lastChecksum_run shows.fills streamable smooth.left (by omega) hc (by simp) <| by
      rw [Nat.zero_add, hi]
      exact portions_pos (e.chunkRows_pos d.state) streamable.rows_pos
    have p := p.run shows.fills streamable smooth.left (by omega)
    have watched := smooth.right.tick
    have hs : rowAfter d.state.rows.toNat (e.run events).scanRow = 0 := by
      have hl : d.state.rows.toNat ≤ e.passLength d.state * e.chunkRows d.state :=
        le_portions_mul _ _ (e.chunkRows_pos d.state)
      rw [p.scanRow, Nat.zero_add, hi, c.chunkRows, rowAfter_of_le hl,
        rowAfter_of_lt streamable.rows_pos]
    obtain idles | skips | ⟨first, rows, ts, sends⟩ :=
      tick_cases p.room watched.left shows.fills streamable
    · exact absurd idles.sessions watched.live
    · exact ⟨skips.outcome, skips.handed⟩
    · exact absurd hn <| sends.due <| sends.begins.trans hs

-- The second chunk of the screen of the bench goes out at the second tick.
theorem full_pass_bench :
    (Sample.engine.run Sample.pinged).PassTick Sample.screen.display 1 := by
  have smooth : Smooth (Watched Sample.screen.display) Sample.engine
      (Sample.pinged ++ [.tick]) := by
    apply Sample.smooth
    intro x hx
    exact ⟨congrArg Host.display (Sample.host_eq hx), Sample.station, 7, Sample.serves hx⟩
  have pass :=
    full_pass Sample.reachable Sample.shows Sample.streamable Sample.top Sample.due smooth
  exact pass.right.left (by decide +kernel)

end RemoteScreen.Engine

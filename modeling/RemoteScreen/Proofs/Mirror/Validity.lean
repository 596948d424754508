import Mathlib.Order.Bounds.Basic
import RemoteScreen.Proofs.Engine.Checked
import RemoteScreen.Proofs.Engine.Run
import RemoteScreen.Proofs.Mirror.Replica

namespace RemoteScreen

-- As many rows as there is room for go into a chunk.
theorem EngineConfig.isGreatest_rowsPerChunk (c : EngineConfig) {s : DisplayState}
    (h : s.cols ≠ 0) :
    IsGreatest {n | headerLength + (chunkHeaderLength + n * s.rowLength) ≤ c.effectiveMtu}
      (c.rowsPerChunk s.cols.toNat) := by
  have hl : 0 < s.rowLength := DisplayState.rowLength_pos h
  refine ⟨c.length_rows_le (Nat.le_refl _), fun n hn => ?_⟩
  rw [Set.mem_ofPred_eq] at hn
  have hb : n * s.rowLength ≤ c.effectiveMtu - headerLength - chunkHeaderLength := by
    omega
  rw [rowsPerChunk, ← DisplayState.rowLength, Nat.max_eq_left hl]
  exact Nat.le_trans ((Nat.le_div_iff_mul_le hl).mpr hb) (Nat.le_max_right ..)

theorem Replica.apply_eq_ok {r : Replica} {c : Chunk} (h : r.WellFormed)
    (hc : c.header.start.toNat + c.cells.length
      ≤ c.header.rows.toNat * c.header.cols.toNat * cellWidth) :
    (r.apply c).1 = .ok (c.header.start.toNat, c.header.start.toNat + c.cells.length) := by
  have hw := h.reshape c.header.rows c.header.cols
  rw [WellFormed, rows_reshape, cols_reshape] at hw
  rw [Replica.apply]
  simp only
  rw [if_neg]
  rw [hw]
  exact Nat.not_lt.mpr hc

-- The chunk places `rows` whole rows from `first` on within a screen, and every viewer takes it.
structure Chunk.Valid (c : Chunk) (s : DisplayState) (first rows : Nat) : Prop where
  shape  : c.header.rows = s.rows ∧ c.header.cols = s.cols
  start  : c.header.start.toNat = first * s.rowLength
  count  : c.header.count.toNat = rows * s.rowLength
  pos    : 0 < c.header.count.toNat
  within : c.header.start.toNat + c.header.count.toNat ≤ s.regionLength
  cells  : c.cells.length = c.header.count.toNat
  fits   : ∀ r : Replica, r.Reachable → (r.apply c).1 = .ok c.header.range

theorem Chunk.Pads.valid {c : Chunk} {d : Display} {first rows : Nat}
    (p : c.Pads (d.chunk first rows) (rows * d.state.rowLength))
    (streamable : d.state.Streamable) (h : first + rows ≤ d.state.rows.toNat) (hr : 0 < rows) :
    c.Valid d.state first rows := by
  have hs := Display.start_chunk streamable h
  have hc := Display.count_chunk streamable h
  have hl : 0 < d.state.rowLength := DisplayState.rowLength_pos streamable.cols
  rw [← p.header] at hs hc
  have hn : c.cells.length = c.header.count.toNat := p.length.trans hc.symm
  have hw : c.header.start.toNat + c.header.count.toNat ≤ d.state.regionLength := by
    rw [hs, hc]
    exact DisplayState.stretch_le h
  refine ⟨?shape, hs, hc, ?pos, hw, hn, ?fits⟩
  case shape =>
    rw [p.header]
    exact ⟨rfl, rfl⟩
  case pos =>
    rw [hc]
    exact Nat.mul_pos hr hl
  case fits =>
    intro r hreach
    rw [ChunkHeader.range, ← hn]
    apply Replica.apply_eq_ok hreach.wellFormed
    rw [hn, p.header, Display.rows_chunk, Display.cols_chunk, Nat.mul_assoc, ← p.header]
    exact hw

-- The frame keeps to the limit, and is read as a chunk of as many of the rows from `first` on as
-- are left and fit.
structure ValidFrame (config : EngineConfig) (s : DisplayState) (first : Nat) (frame : Octets) :
    Prop where
  length : frame.length ≤ config.effectiveMtu
  reads  : ∃ f c rows, Codec.read? ⟨config.ethertype⟩ frame = some f ∧ f.kind = .screenChunk ∧
    Chunk.parse f.payload = .ok c ∧ c.Valid s first rows ∧
    ∃ most,
      IsGreatest {n | headerLength + (chunkHeaderLength + n * s.rowLength) ≤ config.effectiveMtu}
        most ∧
      rows = min (s.rows.toNat - first) most

namespace Engine

variable {σ : Type} [Host σ] {e : Engine σ} {d : Display}

-- Nothing goes out, the caller is told of no chunk, and the next pass starts at the top.
structure Rests (e : Engine σ) : Prop where
  outcome : tellsOfChunk e.tick.1 = false
  scanRow : e.tick.2.scanRow = 0
  hands   : e.Hands [] e.tick.2

-- A chunk of the rows `first` to `first + rows` goes out, and the link answers `ts`.
structure Streams (e : Engine σ) (d : Display) (first rows : Nat) (c : Chunk)
    (ts : List Transmission) : Prop where
  sessions   : e.reap.sessions.active ≠ []
  streamable : d.state.Streamable
  begins     : first = rowAfter d.state.rows.toNat e.scanRow
  spans      : rows = min (e.config.rowsPerChunk d.state.cols.toNat) (d.state.rows.toNat - first)
  pads       : c.Pads (d.chunk first rows) (rows * d.state.rowLength)
  delivers   : e.reap.Delivers c ts e.tick.2
  reports    : Reports ts first rows e.tick.1
  scanRow    : e.tick.2.scanRow = rowAfter d.state.rows.toNat (first + rows)

theorem Rests.handed (r : e.Rests) : e.handed [.tick] = [] :=
  Hands.handed r.hands

theorem Streams.handed {first rows : Nat} {c : Chunk} {ts : List Transmission}
    (s : e.Streams d first rows c ts) : e.handed [.tick] = ts :=
  Hands.handed s.delivers.hands

theorem Streams.handed_ne_nil {first rows : Nat} {c : Chunk} {ts : List Transmission}
    (s : e.Streams d first rows c ts) : e.handed [.tick] ≠ [] := by
  rw [s.handed]
  exact Transmission.ne_nil_of_frames s.delivers.frames s.sessions

theorem rests_of_tick {outcome : TickOutcome} {e' : Engine σ} (h : e.tick = (.ok outcome, e'))
    (ho : tellsOfChunk (.ok outcome) = false) (hs : e'.scanRow = 0)
    (hh : e'.journal = e.journal) : e.Rests := by
  constructor <;> rw [h]
  case outcome => exact ho
  case scanRow => exact hs
  case hands   => exact .of_eq <| congrArg Journal.transmissions hh

-- There is someone to send rows to, and something new to send.
structure Due (e : Engine σ) (d : Display) : Prop where
  sessions   : e.reap.sessions.active ≠ []
  streamable : d.state.Streamable
  changed    : ¬ (rowAfter d.state.rows.toNat e.scanRow = 0 ∧
    e.lastChecksum = some d.regionChecksum)

theorem Due.tick_eq (due : e.Due d) (h : Host.display e.host = d) :
    e.tick = (e.admitted d).sendChunk d := by
  rw [Engine.tick_eq h due.streamable due.sessions, if_neg due.changed]

theorem rests_of_not_streamable (h : Host.display e.host = d)
    (hs : e.reap.sessions.active ≠ []) (hd : ¬ d.state.Streamable) : e.Rests := by
  have ht : e.tick = e.reap.stream d := by
    have hs : e.reap.sessions.isEmpty = false := by
      simpa [SessionTable.isEmpty] using hs
    rw [tick, hs, ← h]
    rfl
  by_cases hz : d.state.rows = 0 ∨ d.state.cols = 0
  case pos =>
    have ht : e.tick = (.ok .unchanged, e.reap.rewind) := by
      rw [ht, stream, if_pos hz]
    exact rests_of_tick ht rfl rfl rfl
  case neg =>
    have hl : 65535 < d.state.regionLength := by
      apply Nat.lt_of_not_le
      intro hl
      obtain ⟨hr, hc⟩ := not_or.mp hz
      exact hd ⟨hr, hc, hl⟩
    have ht : e.tick = (.ok (.oversized d.state.regionLength), e.reap.rewind) := by
      rw [ht, stream, if_neg hz, if_pos hl]
    exact rests_of_tick ht rfl rfl rfl

theorem rests_or_due (h : Host.display e.host = d) : e.Rests ∨ e.Due d := by
  by_cases hs : e.reap.sessions.active = []
  case pos =>
    have ht : e.tick = (.ok .idle, e.reap.rewind) := by
      simp [tick, SessionTable.isEmpty, hs]
    exact .inl <| rests_of_tick ht rfl rfl rfl
  case neg =>
    by_cases streamable : d.state.Streamable
    case neg => exact .inl <| rests_of_not_streamable h hs streamable
    case pos =>
      by_cases hc : rowAfter d.state.rows.toNat e.scanRow = 0 ∧
          e.lastChecksum = some d.regionChecksum
      case neg => exact .inr ⟨hs, streamable, hc⟩
      case pos =>
        have ht := tick_eq h streamable hs
        rw [if_pos hc] at ht
        exact .inl <| rests_of_tick ht rfl hc.left rfl

-- What a tick over any display comes to.
theorem rests_or_streams (room : e.HasRoom) (h : Host.display e.host = d) :
    e.Rests ∨ ∃ first rows c ts, e.Streams d first rows c ts := by
  obtain rests | due := rests_or_due h
  case inl => exact .inl rests
  case inr =>
    have room : (e.admitted d).HasRoom := room
    obtain ⟨c, ts, hp, hd, hr, hn⟩ := sendChunk_cases room d
    rw [← due.tick_eq h] at hd hr hn
    have hn := congrArg Control.scanRow hn
    refine .inr ⟨_, _, c, ts, due.sessions, due.streamable, rfl, rfl, hp, ?_, hr, hn⟩
    exact ⟨hd.hands, hd.frames⟩

-- What a tick says tells whether it has handed anything to the link.
theorem tellsOfChunk_tick_iff (room : e.HasRoom) :
    tellsOfChunk e.tick.1 ↔ e.handed [.tick] ≠ [] := by
  obtain rests | ⟨_, _, _, _, s⟩ := rests_or_streams room rfl
  case inl => simp [rests.outcome, rests.handed]
  case inr => exact iff_of_true s.reports.tells s.handed_ne_nil

variable {first rows : Nat} {c : Chunk} {ts : List Transmission}

theorem Streams.valid (s : e.Streams d first rows c ts) : c.Valid d.state first rows := by
  have hf : first < d.state.rows.toNat := s.begins ▸ rowAfter_lt s.streamable.rows_pos _
  have hk := e.config.rowsPerChunk_pos d.state.cols.toNat
  have hr := s.spans
  exact s.pads.valid s.streamable (by omega) (by omega)

theorem Streams.length_le (s : e.Streams d first rows c ts) :
    headerLength + (chunkHeaderLength + c.cells.length) ≤ e.config.effectiveMtu := by
  have hk : rows ≤ e.config.rowsPerChunk d.state.cols.toNat := by
    rw [s.spans]
    exact Nat.min_le_left ..
  rw [s.pads.length]
  exact e.config.length_rows_le hk

theorem Streams.read? (s : e.Streams d first rows c ts) (identity : Identity) (nonce : UInt32) :
    Codec.read? ⟨e.config.ethertype⟩ (c.framed e.identity e.config.ethertype identity nonce).encode
      = some (c.framed e.identity e.config.ethertype identity nonce) :=
  Chunk.read?_framed (Nat.le_trans s.length_le e.config.effectiveMtu_le) ..

theorem Streams.exists_framed (s : e.Streams d first rows c ts) {t : Transmission} (h : t ∈ ts) :
    ∃ session ∈ e.reap.sessions.active, t.frame =
      (c.framed e.identity e.config.ethertype session.identity session.nonce).encode := by
  have hm := List.mem_map_of_mem (f := Transmission.frame) h
  rw [s.delivers.frames] at hm
  have ⟨session, hs, hf⟩ := List.mem_map.mp hm
  exact ⟨session, hs, hf.symm⟩

theorem Streams.validFrame (s : e.Streams d first rows c ts) {t : Transmission} (h : t ∈ ts) :
    ValidFrame e.config d.state first t.frame := by
  have ⟨session, _, hf⟩ := s.exists_framed h
  rw [hf]
  constructor
  case length =>
    rw [Frame.length_encode, Frame.encodedLength, Chunk.framed, Chunk.length_encode]
    exact s.length_le
  case reads =>
    have hg := e.config.isGreatest_rowsPerChunk s.streamable.cols
    have hp := Chunk.parse_encode s.valid.cells
    exact ⟨_, c, rows, s.read? .., rfl, hp, s.valid, _, hg, Nat.min_comm .. ▸ s.spans⟩

theorem config_make {config : EngineConfig} {host : σ} (h : make config host = .ok e) :
    e.config = config :=
  congrArg Engine.config (eq_of_make h)

-- What holds of a tick whatever the display has come to be since the one before.
structure Sound (e : Engine σ) (s : DisplayState) : Prop where
  bounds  : e.tick? = some e.tick
  fault   : ∀ fault, e.tick.1 = .error fault → ∃ t ∈ e.handed [.tick], t.outcome = .error fault
  frames  : ∀ t ∈ e.handed [.tick],
    ValidFrame e.config s (rowAfter s.rows.toNat e.scanRow) t.frame
  scanRow : e.tick.2.scanRow = 0 ∨ e.tick.2.scanRow < s.rows.toNat

theorem sound_tick (room : e.HasRoom) (h : Host.display e.host = d) : e.Sound d.state := by
  obtain rests | ⟨first, rows, c, ts, streams⟩ := rests_or_streams room h
  case inl =>
    refine ⟨tick?_eq room, ?fault, ?frames, .inl rests.scanRow⟩
    case fault =>
      intro fault hf
      have ho := rests.outcome
      rw [hf] at ho
      contradiction
    case frames =>
      intro t ht
      rw [rests.handed] at ht
      contradiction
  case inr =>
    refine ⟨tick?_eq room, ?fault, ?frames, .inr ?scanRow⟩
    case fault   => exact streams.handed ▸ streams.reports.fault
    case frames  => exact fun t ht => streams.begins ▸ streams.validFrame (streams.handed ▸ ht)
    case scanRow => exact streams.scanRow ▸ rowAfter_lt streams.streamable.rows_pos _

-- Whatever the engine receives and whatever its display shows, every chunk that goes out is good.
theorem run_sound {config : EngineConfig} {host : σ} (h : make config host = .ok e)
    (events : List (Event σ)) :
    (∀ x ∈ e.ticked events, x.config = config ∧ x.Sound (Host.display x.host).state) ∧
    ∀ t ∈ e.handed events, t.IsReply ∨ ∃ x ∈ e.ticked events, t ∈ x.handed [.tick] := by
  have hr : e.Reachable := .make h
  refine ⟨fun x hx => ?_, fun t ht => reply_or_ticked ht⟩
  have ⟨before, _, _, he⟩ := eq_run_of_ticked hx
  subst he
  have hc : (e.run before).config = e.config := (e.continues_run before).config
  exact ⟨hc.trans (config_make h), sound_tick (hr.run before).hasRoom rfl⟩

-- A screen in two chunks: the whole of it goes out, in frames that all hold.
theorem run_sound_bench :
    make Sample.config Sample.bench = .ok Sample.idle ∧
      let events : List (Event Bench) :=
        [.tick, .dispatch (Sample.frame .sessionStart), .tick, .tick, .tick]
      (Sample.idle.handed events).length = 2 ∧
      (∀ x ∈ Sample.idle.ticked events,
        x.config = Sample.config ∧ x.Sound (Host.display x.host).state) ∧
      ∀ t ∈ Sample.idle.handed events,
        t.IsReply ∨ ∃ x ∈ Sample.idle.ticked events, t ∈ x.handed [.tick] := by
  have h : make Sample.config Sample.bench = .ok Sample.idle := rfl
  exact ⟨h, by decide +kernel, run_sound h _⟩

end Engine

end RemoteScreen

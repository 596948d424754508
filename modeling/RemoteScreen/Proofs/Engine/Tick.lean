import RemoteScreen.Proofs.Engine.Control
import RemoteScreen.Proofs.Mirror.Rows

namespace RemoteScreen

theorem EngineConfig.rowsPerChunk_pos (c : EngineConfig) (cols : Nat) : 0 < c.rowsPerChunk cols :=
  Nat.le_max_left ..

theorem EngineConfig.effectiveMtu_le (c : EngineConfig) : c.effectiveMtu ≤ maxJumboLength :=
  Nat.max_le.mpr ⟨by decide, Nat.min_le_right ..⟩

-- However small the frame limit is set, a row of the widest screen fits, so the rows of a chunk
-- never take more than the limit leaves for them.
theorem EngineConfig.length_rows_le (c : EngineConfig) {s : DisplayState} {rows : Nat}
    (h : rows ≤ c.rowsPerChunk s.cols.toNat) :
    headerLength + (chunkHeaderLength + rows * s.rowLength) ≤ c.effectiveMtu := by
  have hm : minMtu ≤ c.effectiveMtu := Nat.le_max_left ..
  have hr := s.rowLength_le
  rw [minMtu] at hm
  let budget := c.effectiveMtu - headerLength - chunkHeaderLength
  suffices hb : rows * s.rowLength ≤ budget by
    omega
  by_cases hc : s.rowLength = 0
  case pos => simp [hc]
  case neg =>
    have hb : 1 ≤ budget / s.rowLength := by
      rw [Nat.one_le_div_iff (Nat.pos_of_ne_zero hc)]
      omega
    have hk : c.rowsPerChunk s.cols.toNat = budget / s.rowLength := by
      rw [rowsPerChunk, ← DisplayState.rowLength, Nat.max_eq_left (Nat.pos_of_ne_zero hc)]
      exact Nat.max_eq_right hb
    rw [hk] at h
    exact Nat.le_trans (Nat.mul_le_mul_right _ h) (Nat.div_mul_le_self ..)

-- The frame in which a chunk goes to a station.
def Chunk.framed (c : Chunk) (own : Identity) (ethertype : UInt16) (destination : Identity)
    (nonce : UInt32) : Frame where
  link    := ⟨destination, own, ethertype⟩
  nonce   := nonce
  kind    := .screenChunk
  payload := c.encode

-- The checksum that says whether a pass over the display is due.
def Display.regionChecksum (d : Display) : UInt32 :=
  d.checksum 0 d.state.regionLength

-- Like another chunk, but with cells behind its own, so that there are `count` in all.
structure Chunk.Pads (c c' : Chunk) (count : Nat) : Prop where
  header : c.header = c'.header
  cells  : c'.cells <+: c.cells
  length : c.cells.length = count

theorem Chunk.Pads.eq_of_length {c c' : Chunk} {count : Nat} (h : c.Pads c' count)
    (hl : c'.cells.length = count) : c = c' := by
  have hc : c'.cells = c.cells := h.cells.eq_of_length (hl.trans h.length.symm)
  cases c
  cases c'
  exact congr (congrArg Chunk.mk h.header) hc.symm

theorem Chunk.read?_framed {c : Chunk}
    (h : headerLength + (chunkHeaderLength + c.cells.length) ≤ maxJumboLength) (own : Identity)
    (ethertype : UInt16) (destination : Identity) (nonce : UInt32) :
    Codec.read? ⟨ethertype⟩ (c.framed own ethertype destination nonce).encode
      = some (c.framed own ethertype destination nonce) := by
  apply Codec.read?_encode rfl
  rw [framed, length_encode]
  exact h

-- The frames that take a chunk to these sessions, each built for its session.
def Chunk.framesFor (c : Chunk) (own : Identity) (ethertype : UInt16) (sessions : List Session) :
    List Octets :=
  sessions.map fun s => (c.framed own ethertype s.identity s.nonce).encode

-- What the link says to frames that it is handed in turn, and the world then.
def Host.transmitAll {σ : Type} [Host σ] (host : σ) : List Octets → List Transmission × σ
  | [] => ([], host)
  | frame :: rest =>
    let answer := Host.transmit frame host
    let later := transmitAll answer.2 rest
    (⟨frame, answer.1⟩ :: later.1, later.2)

theorem Host.map_frame_transmitAll {σ : Type} [Host σ] (host : σ) (frames : List Octets) :
    (Host.transmitAll host frames).1.map Transmission.frame = frames := by
  induction frames generalizing host
  case nil               => rfl
  case cons frame rest hi => rw [transmitAll, List.map_cons, hi]

def Transmission.fault? (t : Transmission) : Option Fault :=
  match t.outcome with
  | .ok _        => none
  | .error fault => some fault

theorem Transmission.fault?_eq_none_iff {t : Transmission} :
    t.fault? = none ↔ succeeded t.outcome := by
  obtain ⟨frame, outcome⟩ := t
  cases outcome <;> simp [fault?, succeeded]

theorem Transmission.fault?_eq_some_iff {t : Transmission} {fault : Fault} :
    t.fault? = some fault ↔ t.outcome = .error fault := by
  obtain ⟨frame, outcome⟩ := t
  cases outcome <;> simp [fault?]

-- If a frame goes to each of some sessions, then something goes out.
theorem Transmission.ne_nil_of_frames {ts : List Transmission} {sessions : List Session}
    {frameFor : Session → Octets} (hf : ts.map frame = sessions.map frameFor)
    (hs : sessions ≠ []) : ts ≠ [] := by
  rintro rfl
  exact hs <| List.map_eq_nil_iff.mp hf.symm

namespace Engine

-- The buffer is long enough for every chunk.
def HasRoom {σ : Type} (e : Engine σ) : Prop :=
  e.control.config.effectiveMtu ≤ e.control.room

namespace Tally

def add (t : Tally) : Except Fault Unit → Tally
  | .ok ()        => { t with delivered := t.delivered + 1 }
  | .error fault  => { t with fault? := t.fault?.or (some fault) }

def addAll (t : Tally) (ts : List Transmission) : Tally :=
  ts.foldl (fun t x => t.add x.outcome) t

-- Every success counts, and the first fault stays.
theorem addAll_eq (t : Tally) (ts : List Transmission) :
    t.addAll ts =
      { delivered := t.delivered + ts.countP (succeeded ·.outcome)
        fault?    := t.fault?.or (ts.findSome? Transmission.fault?) } := by
  induction ts generalizing t
  case nil => simp [addAll]
  case cons x rest hi =>
    rw [addAll, List.foldl_cons, ← addAll, hi, List.findSome?_cons]
    obtain ⟨delivered, fault?⟩ := t
    obtain ⟨frame, outcome⟩ := x
    cases outcome
    case ok    => simp [add, succeeded, Transmission.fault?, Nat.add_assoc, Nat.add_comm 1]
    case error => cases fault? <;> simp [add, succeeded, Transmission.fault?]

end Tally

variable {σ : Type} {e : Engine σ} {d : Display} {first rows : Nat} {ts : List Transmission}

-- A display may be read for fewer octets than it is asked for. The chunk in the draft is as long as
-- it says all the same, for behind them stands what was there before.
theorem draftChunk_spec (d : Display)
    (h : headerLength + (chunkHeaderLength + rows * d.state.rowLength) ≤ e.buffer.length) :
    ∃ c : Chunk, c.Pads (d.chunk e.scanRow rows) (rows * d.state.rowLength) ∧
      let f := c.framed e.identity e.config.ethertype .zero 0
      ∃ draft rest, e.draftChunk d rows = .ok (f.encode.length, draft) ∧
        draft.octets = f.encode ++ rest ∧ draft.octets.length = e.buffer.length := by
  let c := d.chunk e.scanRow rows
  have hb : headerLength ≤ e.buffer.length := Nat.le_of_add_right_le h
  have hc : c.cells.length ≤ rows * d.state.rowLength := List.length_take_le ..
  have hr : headerLength + (c.header.encode.length + rows * d.state.rowLength)
      ≤ e.buffer.length := h
  have ⟨stale, rest, draft, hs, hf, ho, hl⟩ :=
    Draft.finish_short hb hc hr ⟨.zero, e.identity, e.config.ethertype⟩ 0
      .screenChunk
  let padded : Chunk := { c with cells := c.cells ++ stale }
  have hn : padded.cells.length = rows * d.state.rowLength := by
    rw [List.length_append, hs]
  refine ⟨padded, ⟨rfl, List.prefix_append .., hn⟩, draft, rest, ?_, ho, hl⟩
  rw [draftChunk, Draft.ofBuffer_eq hb, Frame.length_encode, Frame.encodedLength, Chunk.framed,
    Chunk.length_encode, hn]
  exact hf

-- If it does not fit, the fault depends on nothing in the buffer but its length.
theorem draftChunk_of_short (d : Display)
    (h : e.buffer.length < headerLength + (chunkHeaderLength + rows * d.state.rowLength)) :
    e.draftChunk d rows = .error (Draft.shortage e.buffer.length
      (chunkHeaderLength + rows * d.state.rowLength)) := by
  rw [draftChunk, Draft.shortage]
  by_cases hb : headerLength ≤ e.buffer.length
  case neg => simp only [Draft.ofBuffer_of_short hb, if_neg hb]
  case pos =>
    simp only [Draft.ofBuffer_eq hb, if_pos hb, Draft.finish, Draft.room, Draft.length_writePayload,
      Draft.length_writeHeaders]
    exact if_pos (by omega)

-- What a tick that sends rows says to its caller, once every session has had its turn.
def verdict (ts : List Transmission) (sent : TickOutcome) : Except Fault TickOutcome :=
  match ts.findSome? Transmission.fault? with
  | some fault => .error fault
  | none       => .ok sent

theorem verdict_eq_ok_iff {sent : TickOutcome} :
    verdict ts sent = .ok sent ↔ ∀ t ∈ ts, succeeded t.outcome := by
  simp only [← Transmission.fault?_eq_none_iff, ← List.findSome?_eq_none_iff, verdict]
  cases ts.findSome? Transmission.fault? <;> simp

theorem verdict_eq_error {sent : TickOutcome} {fault : Fault} (h : verdict ts sent = .error fault) :
    ∃ t ∈ ts, t.outcome = .error fault := by
  rw [verdict] at h
  split at h
  case h_1 hf =>
    have ⟨t, ht, hf⟩ := List.exists_of_findSome?_eq_some hf
    injection h with h
    exact ⟨t, ht, h ▸ Transmission.fault?_eq_some_iff.mp hf⟩
  case h_2 => contradiction

-- Whether a tick tells its caller of a chunk, that it was sent or that there was a fault.
def tellsOfChunk : Except Fault TickOutcome → Bool
  | .ok (.sent ..) => true
  | .ok _          => false
  | .error _       => true

theorem tellsOfChunk_verdict (ts : List Transmission) (first rows delivered : Nat) :
    tellsOfChunk (verdict ts (.sent first rows delivered)) := by
  rw [verdict]
  split <;> rfl

-- The engine once a frame has been offered to everyone and the link has answered `ts`.
def offered (e : Engine σ) (ts : List Transmission) (host : σ) (buffer : Octets) : Engine σ :=
  { e with
    host                  := host
    buffer                := buffer
    journal.transmissions := e.journal.transmissions ++ ts
    stats                 := { e.stats with
      chunksSent     := e.stats.chunksSent + UInt64.ofNat (ts.countP (succeeded ·.outcome))
      transmitErrors := e.stats.transmitErrors + UInt64.ofNat (ts.countP (!succeeded ·.outcome)) } }

theorem offered_nil (e : Engine σ) (buffer : Octets) :
    e.offered [] e.host buffer = { e with buffer } := by
  simp [offered]

theorem offered_offered (e : Engine σ) (xs ys : List Transmission) (host host' : σ)
    (buffer buffer' : Octets) :
    (e.offered xs host buffer).offered ys host' buffer' = e.offered (xs ++ ys) host' buffer' := by
  simp [offered, UInt64.add_assoc]

variable [Host σ]

theorem countChunk_transmit (e : Engine σ) (t : Tally) (frame : Octets) :
    let answer := Host.transmit frame e.host
    (e.transmit frame).2.countChunk t (e.transmit frame).1
      = (t.add answer.1, e.offered [⟨frame, answer.1⟩] answer.2 e.buffer) := by
  rw [transmit]
  cases Host.transmit frame e.host
  case mk outcome host => cases outcome <;> simp [countChunk, Tally.add, offered, succeeded]

-- The induction is on the sessions. What was in the draft for the session before is written over,
-- so all that matters is that a frame with the chunk is in it, whoever that is for.
theorem fanOut_eq {c : Chunk} {own destination : Identity} {ethertype : UInt16} {nonce : UInt32}
    {draft : Draft} {rest : Octets}
    (h : draft.octets = (c.framed own ethertype destination nonce).encode ++ rest)
    (sessions : List Session) (t : Tally) (e : Engine σ) :
    let said := Host.transmitAll e.host (c.framesFor own ethertype sessions)
    ∃ buffer, buffer.length = draft.octets.length ∧
      fanOut (headerLength + c.encode.length) sessions draft t e
        = (t.addAll said.1, e.offered said.1 said.2 buffer) := by
  intro said
  induction sessions generalizing destination nonce draft t e
  case nil => exact ⟨draft.octets, rfl, by rw [fanOut, ← offered_nil]; rfl⟩
  case cons s sessions hi =>
    let f := c.framed own ethertype s.identity s.nonce
    let draft' := draft.retarget s.identity s.nonce
    have ho : draft'.octets = f.encode ++ rest := Draft.octets_retarget h ..
    have hf : draft'.octets.take (headerLength + c.encode.length) = f.encode := by
      rw [ho]
      exact List.take_left' f.length_encode
    let answer := Host.transmit f.encode e.host
    have ⟨buffer, hl, he⟩ :=
      hi ho (t.add answer.1) (e.offered [⟨f.encode, answer.1⟩] answer.2 e.buffer)
    refine ⟨buffer, hl.trans (draft.length_retarget ..), ?_⟩
    simp only [fanOut]
    rw [hf, countChunk_transmit]
    rw [offered_offered] at he
    exact he

theorem rowAfter_of_lt {rows row : Nat} (h : row < rows) : rowAfter rows row = row :=
  if_neg <| Nat.not_le.mpr h

theorem rowAfter_of_le {rows row : Nat} (h : rows ≤ row) : rowAfter rows row = 0 :=
  if_pos h

theorem rowAfter_lt {rows : Nat} (h : 0 < rows) (row : Nat) : rowAfter rows row < rows := by
  rw [rowAfter]
  split <;> omega

-- The chunk goes to every session, and the link answers `ts`.
structure Delivers (e : Engine σ) (c : Chunk) (ts : List Transmission) (e' : Engine σ) : Prop where
  hands  : e.Hands ts e'
  frames : ts.map Transmission.frame = e.sessions.active.map fun s =>
    (c.framed e.identity e.config.ethertype s.identity s.nonce).encode

-- What is returned where the link refused a frame and where it did not.
structure Reports (ts : List Transmission) (first rows : Nat)
    (outcome : Except Fault TickOutcome) : Prop where
  sent  : (∀ t ∈ ts, succeeded t.outcome) → outcome = .ok (.sent first rows ts.length)
  fault : ∀ fault, outcome = .error fault → ∃ t ∈ ts, t.outcome = .error fault
  tells : tellsOfChunk outcome

-- What becomes of a chunk that is drafted. Only the link's answers and the frames depend on the link.
theorem sendChunk_of_draft {c : Chunk} {own destination : Identity} {ethertype : UInt16}
    {nonce : UInt32} {draft : Draft} {rest : Octets}
    (h : e.draftChunk d (e.nextRows d.state) = .ok (headerLength + c.encode.length, draft))
    (ho : draft.octets = (c.framed own ethertype destination nonce).encode ++ rest) :
    let rows := e.nextRows d.state
    let said := Host.transmitAll e.host (c.framesFor own ethertype e.sessions.active)
    ∃ buffer, buffer.length = draft.octets.length ∧ e.sendChunk d =
      (verdict said.1 (.sent e.scanRow rows e.sessions.active.length),
        { e with scanRow := rowAfter d.state.rows.toNat (e.scanRow + rows) }.offered said.1 said.2
          buffer) := by
  intro rows said
  let after := { e with scanRow := rowAfter d.state.rows.toNat (e.scanRow + rows) }
  have ⟨buffer, hb, hf⟩ := fanOut_eq ho e.sessions.active {} after
  refine ⟨buffer, hb, ?_⟩
  have hl : said.1.length = e.sessions.active.length := by
    have hm : said.1.map Transmission.frame = _ := Host.map_frame_transmitAll ..
    simpa [Chunk.framesFor] using congrArg List.length hm
  have ht : Tally.addAll {} said.1 =
      ⟨said.1.countP (succeeded ·.outcome), said.1.findSome? Transmission.fault?⟩ := by
    simp [Tally.addAll_eq]
  simp only [sendChunk, h]
  rw [show fanOut _ _ _ _ _ = _ from hf, show Tally.addAll {} _ = _ from ht, verdict]
  cases hv : said.1.findSome? Transmission.fault?
  case some => rfl
  case none =>
    have hc : said.1.countP (succeeded ·.outcome) = said.1.length := by
      rw [List.countP_eq_length]
      intro t ht
      exact Transmission.fault?_eq_none_iff.mp <| List.findSome?_eq_none_iff.mp hv t ht
    simp only [hc, hl]
    rfl

-- The chunk is the same whatever the link will say to it.
theorem sendChunk_eq (d : Display) (h : headerLength +
      (chunkHeaderLength + e.nextRows d.state * d.state.rowLength) ≤ e.buffer.length) :
    let first := e.scanRow
    let rows := e.nextRows d.state
    ∃ c : Chunk, c.Pads (d.chunk first rows) (rows * d.state.rowLength) ∧ ∀ host : σ,
      let said := Host.transmitAll host
        (c.framesFor e.identity e.config.ethertype e.sessions.active)
      ∃ buffer, buffer.length = e.buffer.length ∧ { e with host }.sendChunk d =
        (verdict said.1 (.sent first rows e.sessions.active.length),
          { e with scanRow := rowAfter d.state.rows.toNat (first + rows) }.offered said.1 said.2
            buffer) := by
  intro first rows
  have ⟨c, hp, draft, rest, hd, ho, hl⟩ := draftChunk_spec d h
  rw [Frame.length_encode, Frame.encodedLength, Chunk.framed] at hd
  refine ⟨c, hp, fun host => ?_⟩
  obtain ⟨buffer, hb, hs⟩ := sendChunk_of_draft (e := { e with host }) hd ho
  exact ⟨buffer, hb.trans hl, hs⟩

theorem sendChunk_of_fills (fills : d.Fills) (h : headerLength +
      (chunkHeaderLength + e.nextRows d.state * d.state.rowLength) ≤ e.buffer.length) :
    let rows := e.nextRows d.state
    let said := Host.transmitAll e.host <| (d.chunk e.scanRow rows).framesFor e.identity
      e.config.ethertype e.sessions.active
    ∃ buffer, buffer.length = e.buffer.length ∧ e.sendChunk d =
      (verdict said.1 (.sent e.scanRow rows e.sessions.active.length),
        { e with scanRow := rowAfter d.state.rows.toNat (e.scanRow + rows) }.offered said.1 said.2
          buffer) := by
  have ⟨c, hp, hc⟩ := sendChunk_eq d h
  obtain rfl := hp.eq_of_length <| d.length_cells_chunk fills ..
  exact hc e.host

theorem sendChunk_of_short (d : Display) (h : e.buffer.length < headerLength +
      (chunkHeaderLength + e.nextRows d.state * d.state.rowLength)) :
    e.sendChunk d = (.error (Draft.shortage e.buffer.length
      (chunkHeaderLength + e.nextRows d.state * d.state.rowLength)), e) := by
  rw [sendChunk, draftChunk_of_short d h]

theorem sendChunk_cases (room : e.HasRoom) (d : Display) :
    let first := e.scanRow
    let rows := e.nextRows d.state
    ∃ c ts, c.Pads (d.chunk first rows) (rows * d.state.rowLength) ∧
      e.Delivers c ts (e.sendChunk d).2 ∧ Reports ts first rows (e.sendChunk d).1 ∧
      (e.sendChunk d).2.control
        = { e.control with scanRow := rowAfter d.state.rows.toNat (first + rows) } := by
  intro first rows
  have hr : headerLength + (chunkHeaderLength + rows * d.state.rowLength) ≤ e.buffer.length := by
    have hk : rows ≤ e.config.rowsPerChunk d.state.cols.toNat := Nat.min_le_left ..
    exact Nat.le_trans (e.config.length_rows_le hk) room
  have ⟨c, hp, hc⟩ := sendChunk_eq d hr
  have ⟨buffer, hl, hs⟩ := hc e.host
  have hs : e.sendChunk d = _ := hs
  let frames := c.framesFor e.identity e.config.ethertype e.sessions.active
  let ts := (Host.transmitAll e.host frames).1
  have hm : ts.map Transmission.frame = frames := Host.map_frame_transmitAll ..
  have hn : ts.length = e.sessions.active.length := by
    simpa [frames, Chunk.framesFor] using congrArg List.length hm
  rw [hs]
  refine ⟨c, ts, hp, ⟨rfl, hm⟩, ⟨?sent, fun _ => verdict_eq_error, tellsOfChunk_verdict ..⟩, ?control⟩
  case sent =>
    intro h
    rw [hn]
    exact verdict_eq_ok_iff.mpr h
  case control => simp [control, offered, hl, rows, first]

-- The rows `first` to `first + rows` of the display go to every session, and the link answers `ts`.
structure Offers (e : Engine σ) (d : Display) (first rows : Nat) (ts : List Transmission)
    (outcome : Except Fault TickOutcome) (e' : Engine σ) : Prop where
  hands   : e.Hands ts e'
  frames  : ts.map Transmission.frame = e.sessions.active.map fun s =>
    ((d.chunk first rows).framed e.identity e.config.ethertype s.identity s.nonce).encode
  outcome : (∀ t ∈ ts, succeeded t.outcome) → outcome = .ok (.sent first rows ts.length)

theorem sendChunk_spec (room : e.HasRoom) (fills : d.Fills) :
    let first := e.scanRow
    let rows := e.nextRows d.state
    ∃ ts, e.Offers d first rows ts (e.sendChunk d).1 (e.sendChunk d).2 ∧
      (e.sendChunk d).2.control
        = { e.control with scanRow := rowAfter d.state.rows.toNat (first + rows) } := by
  intro first rows
  have ⟨c, ts, hp, hd, hr, hc⟩ := sendChunk_cases room d
  have hp := hp.eq_of_length (d.length_cells_chunk fills ..)
  subst hp
  exact ⟨ts, ⟨hd.hands, hd.frames, hr.sent⟩, hc⟩

-- With no session left, a tick takes the next pass back to the top.
structure Idles (e : Engine σ) : Prop where
  sessions : e.reap.sessions.active = []
  control  : e.tick.2.control = { e.reap.control with scanRow := 0 }
  hands    : e.Hands [] e.tick.2

-- At the top of a screen that has not changed since the last pass began, a tick does nothing.
structure Skips (e : Engine σ) (d : Display) : Prop where
  sessions : e.reap.sessions.active ≠ []
  top      : rowAfter d.state.rows.toNat e.scanRow = 0
  checksum : e.lastChecksum = some d.regionChecksum
  outcome  : e.tick.1 = .ok .unchanged
  control  : e.tick.2.control = { e.reap.control with scanRow := 0 }
  hands    : e.Hands [] e.tick.2

-- Otherwise it sends the next rows, and at the top it takes note of the checksum.
structure Sends (e : Engine σ) (d : Display) (first rows : Nat) (ts : List Transmission) :
    Prop where
  sessions : e.reap.sessions.active ≠ []
  begins   : first = rowAfter d.state.rows.toNat e.scanRow
  spans    : rows = min (e.config.rowsPerChunk d.state.cols.toNat) (d.state.rows.toNat - first)
  due      : first = 0 → e.lastChecksum ≠ some d.regionChecksum
  offers   : e.reap.Offers d first rows ts e.tick.1 e.tick.2
  control  : e.tick.2.control = { e.reap.control with
    scanRow      := rowAfter d.state.rows.toNat (first + rows)
    lastChecksum := if first = 0 then some d.regionChecksum else e.lastChecksum }

theorem Sends.first_lt (s : e.Sends d first rows ts) (streamable : d.state.Streamable) :
    first < d.state.rows.toNat :=
  s.begins ▸ rowAfter_lt streamable.rows_pos _

theorem Sends.within (s : e.Sends d first rows ts) (streamable : d.state.Streamable) :
    first + rows ≤ d.state.rows.toNat := by
  have hf := s.first_lt streamable
  have := s.spans
  omega

theorem Sends.scanRow (s : e.Sends d first rows ts) :
    e.tick.2.scanRow = rowAfter d.state.rows.toNat (first + rows) :=
  congrArg Control.scanRow s.control

theorem Sends.lastChecksum (s : e.Sends d first rows ts) :
    e.tick.2.lastChecksum = if first = 0 then some d.regionChecksum else e.lastChecksum :=
  congrArg Control.lastChecksum s.control

theorem Sends.length_le (s : e.Sends d first rows ts) :
    headerLength + (chunkHeaderLength + rows * d.state.rowLength) ≤ maxJumboLength := by
  have hk : rows ≤ e.config.rowsPerChunk d.state.cols.toNat := by
    rw [s.spans]
    exact Nat.min_le_left ..
  exact Nat.le_trans (e.config.length_rows_le hk) e.config.effectiveMtu_le

theorem Sends.frame (s : e.Sends d first rows ts) {t : Transmission} (h : t ∈ ts) :
    ∃ session : Session, t.frame = ((d.chunk first rows).framed e.identity e.config.ethertype
      session.identity session.nonce).encode := by
  have hf := List.mem_map_of_mem (f := Transmission.frame) h
  rw [s.offers.frames] at hf
  have ⟨session, _, hf⟩ := List.mem_map.mp hf
  exact ⟨session, hf.symm⟩

-- The engine that sends the rows, once it is settled that some are to be sent.
def admitted (e : Engine σ) (d : Display) : Engine σ :=
  { e.reap with
    scanRow      := rowAfter d.state.rows.toNat e.scanRow
    lastChecksum :=
      if rowAfter d.state.rows.toNat e.scanRow = 0 then some d.regionChecksum
      else e.lastChecksum }

theorem tick_eq (h : Host.display e.host = d) (streamable : d.state.Streamable)
    (hs : e.reap.sessions.active ≠ []) :
    e.tick =
      if rowAfter d.state.rows.toNat e.scanRow = 0 ∧ e.lastChecksum = some d.regionChecksum then
        (.ok .unchanged, { e.reap with
          scanRow              := rowAfter d.state.rows.toNat e.scanRow
          stats.unchangedSkips := e.stats.unchangedSkips + 1 })
      else (e.admitted d).sendChunk d := by
  have hd : Host.display e.reap.host = d := h
  have hr := Nat.not_lt.mpr streamable.region
  have hl : e.reap.lastChecksum = e.lastChecksum := rfl
  have hc : e.reap.scanRow = e.scanRow := rfl
  simp only [tick, SessionTable.isEmpty, List.isEmpty_iff, hs, hd, stream, streamable.rows,
    streamable.cols, hr, or_self, if_false, admitPass?, hl, hc]
  rw [← Display.regionChecksum]
  by_cases ht : rowAfter d.state.rows.toNat e.scanRow = 0
  case pos =>
    by_cases hk : e.lastChecksum = some d.regionChecksum
    case pos => simp [ht, hk, reap]
    case neg => simp [ht, hk, admitted]
  case neg => simp [ht, admitted]

-- What a tick over a screen that can be streamed comes to.
theorem tick_cases (room : e.HasRoom) (h : Host.display e.host = d) (fills : d.Fills)
    (streamable : d.state.Streamable) :
    e.Idles ∨ e.Skips d ∨ ∃ first rows ts, e.Sends d first rows ts := by
  by_cases hs : e.reap.sessions.active = []
  case pos =>
    have ht : e.tick = (.ok .idle, e.reap.rewind) := by
      simp [tick, SessionTable.isEmpty, hs]
    refine .inl ⟨hs, ?_, ?_⟩ <;> rw [ht]
    · rfl
    · exact .of_eq rfl
  case neg =>
    have ht := tick_eq h streamable hs
    split at ht
    · rename_i hc
      refine .inr <| .inl ⟨hs, hc.left, hc.right, ?_, ?_, ?_⟩ <;> rw [ht]
      · rw [control, control, hc.left]
      · exact .of_eq rfl
    · rename_i hc
      have room : (e.admitted d).HasRoom := room
      have ⟨ts, ho, hn⟩ := sendChunk_spec room fills
      rw [← ht] at ho hn
      refine .inr <| .inr ⟨_, _, ts, hs, rfl, rfl, ?_, ⟨ho.hands, ho.frames, ho.outcome⟩, hn⟩
      intro hf hk
      exact hc ⟨hf, hk⟩

-- At the top, the checksum that the engine goes by comes to be that of the display.
theorem lastChecksum_tick (room : e.HasRoom) (h : Host.display e.host = d) (fills : d.Fills)
    (streamable : d.state.Streamable) (live : e.reap.sessions.active ≠ []) :
    e.tick.2.lastChecksum =
      if rowAfter d.state.rows.toNat e.scanRow = 0 then some d.regionChecksum
      else e.lastChecksum := by
  obtain idles | skips | ⟨first, rows, ts, sends⟩ := tick_cases room h fills streamable
  · exact absurd idles.sessions live
  · rw [if_pos skips.top, ← skips.checksum]
    exact congrArg Control.lastChecksum skips.control
  · rw [← sends.begins]
    exact sends.lastChecksum

-- What no operation changes or takes back.
structure Continues (e e' : Engine σ) : Prop where
  config   : e'.control.config = e.control.config
  identity : e'.control.identity = e.control.identity
  room     : e'.control.room = e.control.room
  journal  : e.journal.transmissions <+: e'.journal.transmissions

omit [Host σ] in
theorem Continues.refl (e : Engine σ) : e.Continues e :=
  ⟨rfl, rfl, rfl, List.prefix_rfl⟩

omit [Host σ] in
theorem Continues.trans {e₁ e₂ e₃ : Engine σ} (h₁ : e₁.Continues e₂) (h₂ : e₂.Continues e₃) :
    e₁.Continues e₃ :=
  ⟨h₂.config.trans h₁.config, h₂.identity.trans h₁.identity, h₂.room.trans h₁.room,
    h₁.journal.trans h₂.journal⟩

omit [Host σ] in
theorem Continues.of_control {e e' : Engine σ} {ts : List Transmission}
    (hc : e'.control = e.control) (hh : e.Hands ts e') : e.Continues e' :=
  ⟨by rw [hc], by rw [hc], by rw [hc], ts, hh.symm⟩

-- What streaming leaves alone, besides what nothing changes.
structure Spares (e e' : Engine σ) : Prop where
  continues  : e.Continues e'
  sessions   : e'.sessions = e.sessions
  injections : e'.journal.injections = e.journal.injections

omit [Host σ] in
theorem Spares.refl (e : Engine σ) : e.Spares e :=
  ⟨.refl e, rfl, rfl⟩

omit [Host σ] in
theorem Spares.trans {e₁ e₂ e₃ : Engine σ} (h₁ : e₁.Spares e₂) (h₂ : e₂.Spares e₃) :
    e₁.Spares e₃ :=
  ⟨h₁.continues.trans h₂.continues, h₂.sessions.trans h₁.sessions,
    h₂.injections.trans h₁.injections⟩

omit [Host σ] in
theorem Spares.scan (e : Engine σ) (scanRow : Nat) (lastChecksum : Option UInt32)
    (stats : EngineStats) : e.Spares { e with scanRow, lastChecksum, stats } :=
  ⟨⟨rfl, rfl, rfl, List.prefix_rfl⟩, rfl, rfl⟩

omit [Host σ] in
theorem spares_countChunk (e : Engine σ) (t : Tally) (outcome : Except Fault Unit) :
    e.Spares (e.countChunk t outcome).2 :=
  ⟨.of_control (control_countChunk ..) (hands_countChunk ..), by cases outcome <;> rfl,
    by cases outcome <;> rfl⟩

theorem spares_fanOut {length : Nat} (sessions : List Session) {draft : Draft} {t : Tally}
    {e : Engine σ} (h : draft.octets.length = e.buffer.length) :
    e.Spares (fanOut length sessions draft t e).2 := by
  induction sessions generalizing draft t e
  case nil => exact ⟨⟨rfl, rfl, h, List.prefix_rfl⟩, rfl, rfl⟩
  case cons s sessions hi =>
    let draft' := draft.retarget s.identity s.nonce
    let sent := e.transmit (draft'.octets.take length)
    let counted := sent.2.countChunk t sent.1
    have ht : e.Spares sent.2 := ⟨.of_control rfl (e.hands_transmit _), rfl, rfl⟩
    have hc : e.Spares counted.2 := ht.trans <| spares_countChunk ..
    have hd : draft'.octets.length = counted.2.buffer.length := by
      refine Eq.trans ?_ hc.continues.room.symm
      exact (draft.length_retarget ..).trans h
    exact hc.trans (hi hd)

omit [Host σ] in
theorem length_draftChunk {length : Nat} {draft : Draft}
    (h : e.draftChunk d rows = .ok (length, draft)) :
    draft.octets.length = e.buffer.length := by
  rw [draftChunk] at h
  split at h
  · contradiction
  · rename_i hb
    rw [Draft.ofBuffer] at hb
    split at hb
    · injection hb with hb
      rw [Draft.length_finish h, ← hb]
      simp
    · contradiction

theorem spares_sendChunk (e : Engine σ) (d : Display) : e.Spares (e.sendChunk d).2 := by
  rw [sendChunk]
  split
  · exact .refl e
  · rename_i length draft hd
    let after := { e with scanRow := rowAfter d.state.rows.toNat (e.scanRow + e.nextRows d.state) }
    have hl : draft.octets.length = e.buffer.length := length_draftChunk hd
    have ha : e.Spares after := .scan e ..
    have hf : e.Spares (fanOut length after.sessions.active draft {} after).2 :=
      ha.trans <| spares_fanOut _ hl
    simp only
    split <;> rename_i hs <;> rw [hs] at hf <;> exact hf

omit [Host σ] in
theorem admitPass?_eq_some {e' : Engine σ} (h : e.admitPass? d = some e') :
    ∃ lastChecksum, (lastChecksum = e.lastChecksum ∨ lastChecksum = some d.regionChecksum) ∧
      e' = { e with lastChecksum } := by
  rw [admitPass?] at h
  split at h
  case isTrue =>
    simp only at h
    split at h
    case isTrue  => contradiction
    case isFalse => exact ⟨_, .inr rfl, (Option.some.inj h).symm⟩
  case isFalse => exact ⟨e.lastChecksum, .inl rfl, (Option.some.inj h).symm⟩

-- Either nothing is sent and at most the scan row moves, or rows are sent from where it is then.
theorem stream_cases (e : Engine σ) (d : Display) :
    (∃ scanRow skips, (e.stream d).2 = { e with scanRow, stats.unchangedSkips := skips }) ∨
    ∃ scanRow lastChecksum,
      (lastChecksum = e.lastChecksum ∨ lastChecksum = some d.regionChecksum) ∧
      e.stream d = sendChunk { e with scanRow, lastChecksum } d := by
  simp only [stream]
  split
  case isTrue => exact .inl ⟨0, e.stats.unchangedSkips, rfl⟩
  case isFalse =>
    split
    case isTrue => exact .inl ⟨0, e.stats.unchangedSkips, rfl⟩
    case isFalse =>
      split
      case h_1 => exact .inl ⟨_, _, rfl⟩
      case h_2 ha =>
        obtain ⟨lastChecksum, hl, rfl⟩ := admitPass?_eq_some ha
        exact .inr ⟨_, lastChecksum, hl, rfl⟩

theorem spares_stream (e : Engine σ) (d : Display) : e.Spares (e.stream d).2 := by
  obtain ⟨_, _, hs⟩ | ⟨_, _, -, hs⟩ := e.stream_cases d <;> rw [hs]
  case inl => exact .scan e ..
  case inr => exact (Spares.scan e ..).trans <| spares_sendChunk _ d

theorem spares_tick (e : Engine σ) : e.reap.Spares e.tick.2 := by
  simp only [tick]
  split
  case isTrue  => exact .scan e.reap ..
  case isFalse => exact spares_stream e.reap _

theorem continues_tick (e : Engine σ) : e.Continues e.tick.2 := by
  have hr : e.Continues e.reap := ⟨rfl, rfl, rfl, List.prefix_rfl⟩
  exact hr.trans e.spares_tick.continues

end Engine

end RemoteScreen

import RemoteScreen.Proofs.Engine.Tick

namespace RemoteScreen.Engine

variable {σ : Type} {e : Engine σ} {d : Display}

-- The steps of a tick once more. These have no answer where a stretch would pass the end of what
-- it is taken from, or where there is no room for a frame.

def draftChunk? (e : Engine σ) (d : Display) (rows : Nat) : Option (Nat × Draft) := do
  let count := rows * d.state.rowLength
  let draft ← (Draft.ofBuffer e.buffer).toOption
  let stamped := draft.writeHeaders ⟨.zero, e.identity, e.config.ethertype⟩ 0
  let headed ← stamped.writePayload? 0 (e.chunkHeader d.state rows).encode
  let _ ← headed.writePayload? chunkHeaderLength (Octets.zeros count)
  let filled := headed.writePayload chunkHeaderLength
    ((d.read (e.scanRow * d.state.rowLength) count).take count)
  (filled.finish .screenChunk (chunkHeaderLength + count)).toOption

variable [Host σ]

def fanOut? (length : Nat) : List Session → Draft → Tally → Engine σ → Option (Tally × Engine σ)
  | [], draft, tally, e => some (tally, { e with buffer := draft.octets })
  | session :: rest, draft, tally, e =>
    let draft := draft.retarget session.identity session.nonce
    if length ≤ draft.octets.length then
      let (outcome, e) := e.transmit (draft.octets.take length)
      let (tally, e) := e.countChunk tally outcome
      fanOut? length rest draft tally e
    else none

def sendChunk? (e : Engine σ) (d : Display) : Option (Except Fault TickOutcome × Engine σ) :=
  let first := e.scanRow
  let rows := e.nextRows d.state
  -- The rows left are counted by taking away those above them.
  if d.state.rows.toNat < first then none
  else
    match e.draftChunk? d rows with
    | none => none
    | some (length, draft) =>
      let e := { e with scanRow := rowAfter d.state.rows.toNat (first + rows) }
      match fanOut? length e.sessions.active draft {} e with
      | none => none
      | some ({ fault? := some fault, .. }, e) => some (.error fault, e)
      | some ({ delivered, .. }, e) => some (.ok (.sent first rows delivered), e)

def stream? (e : Engine σ) (d : Display) : Option (Except Fault TickOutcome × Engine σ) :=
  if d.state.rows = 0 ∨ d.state.cols = 0 then some (.ok .unchanged, e.rewind)
  else if 65535 < d.state.regionLength then some (.ok (.oversized d.state.regionLength), e.rewind)
  else
    let e := { e with scanRow := rowAfter d.state.rows.toNat e.scanRow }
    match e.admitPass? d with
    | none => some (.ok .unchanged, { e with stats.unchangedSkips := e.stats.unchangedSkips + 1 })
    | some e => e.sendChunk? d

def tick? (e : Engine σ) : Option (Except Fault TickOutcome × Engine σ) :=
  let e := e.reap
  if e.sessions.isEmpty then some (.ok .idle, e.rewind)
  else e.stream? (Host.display e.host)

omit [Host σ] in
theorem draftChunk?_eq {rows length : Nat} {draft : Draft}
    (h : headerLength + (chunkHeaderLength + rows * d.state.rowLength) ≤ e.buffer.length)
    (hd : e.draftChunk d rows = .ok (length, draft)) :
    e.draftChunk? d rows = some (length, draft) := by
  have hb : headerLength ≤ e.buffer.length := Nat.le_of_add_right_le h
  rw [draftChunk, Draft.ofBuffer_eq hb] at hd
  have hr (s : Draft) (hs : s.octets.length = e.buffer.length) :
      chunkHeaderLength + rows * d.state.rowLength ≤ s.room := by
    rw [Draft.room, hs]
    omega
  have hh (s : Draft) (hs : s.octets.length = e.buffer.length) :
      (e.chunkHeader d.state rows).encode.length ≤ s.room :=
    Nat.le_of_add_right_le (hr s hs)
  simp [draftChunk?, Draft.ofBuffer_eq hb, Except.toOption, Draft.writePayload?, hh, hr, hd]

theorem fanOut?_eq {length : Nat} (sessions : List Session) {draft : Draft} (t : Tally)
    (e : Engine σ) (h : length ≤ draft.octets.length) :
    fanOut? length sessions draft t e = some (fanOut length sessions draft t e) := by
  induction sessions generalizing draft t e
  case nil => rfl
  case cons s sessions hi =>
    have hl : length ≤ (draft.retarget s.identity s.nonce).octets.length := by
      rw [Draft.length_retarget]
      exact h
    rw [fanOut?, if_pos hl]
    exact hi _ _ hl

theorem sendChunk?_eq (room : e.HasRoom) (h : e.scanRow ≤ d.state.rows.toNat) :
    e.sendChunk? d = some (e.sendChunk d) := by
  have hr : headerLength + (chunkHeaderLength + e.nextRows d.state * d.state.rowLength)
      ≤ e.buffer.length := by
    have hk : e.nextRows d.state ≤ e.config.rowsPerChunk d.state.cols.toNat := Nat.min_le_left ..
    exact Nat.le_trans (e.config.length_rows_le hk) room
  have ⟨c, _, draft, rest, hd, ho, _⟩ := draftChunk_spec d hr
  have hl : (c.framed e.identity e.config.ethertype .zero 0).encode.length
      ≤ draft.octets.length := by
    rw [ho, List.length_append]
    exact Nat.le_add_right ..
  rw [sendChunk?, if_neg (Nat.not_lt.mpr h), draftChunk?_eq hr hd, sendChunk, hd]
  simp only [fanOut?_eq _ _ _ hl]
  generalize (fanOut _ _ _ _ _ : Tally × Engine σ) = offered
  obtain ⟨⟨_, fault?⟩, _⟩ := offered
  cases fault? <;> rfl

theorem stream?_eq (room : e.HasRoom) (d : Display) : e.stream? d = some (e.stream d) := by
  rw [stream?, stream]
  split
  case isTrue => rfl
  case isFalse hd =>
    split
    case isTrue => rfl
    case isFalse =>
      have hr : 0 < d.state.rows.toNat := DisplayState.toNat_pos (not_or.mp hd).left
      let rewound := { e with scanRow := rowAfter d.state.rows.toNat e.scanRow }
      have hl : rewound.scanRow ≤ d.state.rows.toNat := Nat.le_of_lt <| rowAfter_lt hr _
      change (match rewound.admitPass? d with | none => _ | some e => e.sendChunk? d) =
        some (match rewound.admitPass? d with | none => _ | some e => e.sendChunk d)
      cases ha : rewound.admitPass? d
      case none => rfl
      case some after =>
        obtain ⟨_, _, rfl⟩ := admitPass?_eq_some ha
        exact sendChunk?_eq room hl

-- A tick never reaches past the end of anything, and always has room for its frame.
theorem tick?_eq (room : e.HasRoom) : e.tick? = some e.tick := by
  have room : e.reap.HasRoom := room
  rw [tick?, tick]
  by_cases hs : e.reap.sessions.isEmpty
  case pos => rw [if_pos hs, if_pos hs]
  case neg => rw [if_neg hs, if_neg hs, stream?_eq room]

end RemoteScreen.Engine

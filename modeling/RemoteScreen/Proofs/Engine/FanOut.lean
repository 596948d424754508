import RemoteScreen.Proofs.Mirror.Validity

namespace RemoteScreen.Engine

variable {σ : Type} [Host σ] {e : Engine σ} {d : Display}

-- Two worlds that differ at most in the link and in the keyboard queue.
structure Resembles (host host' : σ) : Prop where
  display : Host.display host' = Host.display host
  now     : Host.now host' = Host.now host

variable {host : σ}

theorem Resembles.reap (r : Resembles e.host host) :
    { e with host }.reap = { e.reap with host } := by
  rw [Engine.reap, r.now]
  rfl

theorem Resembles.admitted (r : Resembles e.host host) (d : Display) :
    { e with host }.admitted d = { e.admitted d with host } := by
  rw [Engine.admitted, r.reap]
  rfl

theorem Resembles.due (r : Resembles e.host host) (due : e.Due d) : { e with host }.Due d where
  sessions   := r.reap ▸ due.sessions
  streamable := due.streamable
  changed    := due.changed

theorem due_of_handed (h : Host.display e.host = d) (sends : e.handed [.tick] ≠ []) : e.Due d := by
  obtain rests | due := rests_or_due h
  case inl => exact absurd rests.handed sends
  case inr => exact due

-- A chunk that does not fit the buffer goes nowhere.
theorem fits_of_handed (h : Host.display e.host = d) (due : e.Due d)
    (sends : e.handed [.tick] ≠ []) :
    headerLength + (chunkHeaderLength + (e.admitted d).nextRows d.state * d.state.rowLength)
      ≤ e.buffer.length := by
  apply Nat.le_of_not_lt
  intro hs
  have ht : (e.run [.tick]).journal = e.journal := by
    change e.tick.2.journal = e.journal
    rw [due.tick_eq h, sendChunk_of_short d hs]
    rfl
  exact sends <| Hands.handed <| .of_eq <| congrArg Journal.transmissions ht

-- Every session that is left is offered the chunk once, in the order of the slots and in a frame
-- that is built for it alone. What the link answers is counted, and the first fault is returned.
structure FansOut (e : Engine σ) (c : Chunk) (first rows : Nat) (ts : List Transmission) :
    Prop where
  calls   : Host.transmitAll e.host
    (c.framesFor e.identity e.config.ethertype e.reap.sessions.active) = (ts, e.tick.2.host)
  hands   : e.Hands ts e.tick.2
  outcome : e.tick.1 = verdict ts (.sent first rows e.reap.sessions.active.length)
  stats   : e.tick.2.stats = { e.stats with
    chunksSent     := e.stats.chunksSent + UInt64.ofNat (ts.countP (succeeded ·.outcome))
    transmitErrors := e.stats.transmitErrors + UInt64.ofNat (ts.countP (!succeeded ·.outcome)) }
  control : e.tick.2.control = { e.reap.control with
    scanRow      := rowAfter (Host.display e.host).state.rows.toNat (first + rows)
    lastChecksum :=
      if first = 0 then some (Host.display e.host).regionChecksum else e.lastChecksum }

-- A tick sends a chunk if it hands anything to the link, and, where the buffer is long enough for
-- every chunk, if it tells its caller of one.
def Broadcasts (e : Engine σ) : Prop :=
  e.handed [.tick] ≠ [] ∨ e.HasRoom ∧ tellsOfChunk e.tick.1

theorem Broadcasts.handed (h : e.Broadcasts) : e.handed [.tick] ≠ [] := by
  cases h
  case inl sends => exact sends
  case inr h     => exact (tellsOfChunk_tick_iff h.left).mp h.right

-- Whatever the link says to the frames of a chunk, none is left out or altered, and the engine goes
-- on from the same row, with the same checksum and the same sessions.
theorem fans_out (broadcasts : e.Broadcasts) :
    let d := Host.display e.host
    ∃ (c : Chunk) (first rows : Nat), c.Pads (d.chunk first rows) (rows * d.state.rowLength) ∧
      ∀ host : σ, Resembles e.host host →
        (∃ ts, { e with host }.FansOut c first rows ts) ∧
        { e with host }.tick.2.control = e.tick.2.control := by
  intro d
  have sends := broadcasts.handed
  have due : e.Due d := due_of_handed rfl sends
  have ⟨c, hp, hc⟩ := sendChunk_eq d (fits_of_handed rfl due sends)
  have fans (host : σ) (r : Resembles e.host host) :
      ∃ ts, { e with host }.FansOut c (e.admitted d).scanRow ((e.admitted d).nextRows d.state) ts := by
    let said := Host.transmitAll host <|
      c.framesFor e.identity e.config.ethertype e.reap.sessions.active
    have ⟨buffer, hl, hs⟩ := hc host
    rw [← r.admitted d, ← (r.due due).tick_eq r.display] at hs
    refine ⟨said.1, ?calls, ?hands, ?outcome, ?stats, ?control⟩
    case control =>
      rw [hs, r.reap, r.display]
      simp [Engine.control, offered, hl, admitted, Engine.reap, d]
    all_goals
      simp only [hs, r.reap]
      rfl
  refine ⟨c, _, _, hp, fun host r => ⟨fans host r, ?_⟩⟩
  obtain ⟨_, fans₁⟩ := fans host r
  obtain ⟨_, fans₂⟩ := fans e.host ⟨rfl, rfl⟩
  rw [fans₁.control, r.reap, r.display]
  exact fans₂.control.symm

namespace Sample

def neighbour : Identity :=
  ⟨2, 0, 0, 0, 0, 3⟩

def paired : Engine Bench :=
  engine.dispatch (Frame.mk ⟨bench.identity, neighbour, defaultEthertype⟩ 9 .sessionStart []).encode

-- A link that refuses what is for the first of the two stations.
def severed : Bench :=
  { bench with outage? := some ⟨.refusal, [station]⟩ }

end Sample

-- The second station gets its frame although the one before it is refused.
theorem fans_out_severed :
    Sample.paired.handed [.tick] ≠ [] ∧ Resembles Sample.paired.host Sample.severed ∧
      let severed := { Sample.paired with host := Sample.severed }
      (Sample.paired.handed [.tick]).map (succeeded ·.outcome) = [true, true] ∧
      (severed.handed [.tick]).map (succeeded ·.outcome) = [false, true] ∧
      (∃ (c : Chunk) (first rows : Nat) (ts : List Transmission), severed.FansOut c first rows ts) ∧
      severed.tick.2.control = Sample.paired.tick.2.control := by
  have hp : (Sample.paired.handed [.tick]).map (succeeded ·.outcome) = [true, true] := by
    decide +kernel
  have sends : Sample.paired.handed [.tick] ≠ [] := by
    intro hn
    simp [hn] at hp
  have resembles : Resembles Sample.paired.host Sample.severed := by
    have hh : Sample.paired.host = Sample.bench := by
      decide +kernel
    exact hh ▸ ⟨rfl, rfl⟩
  have ⟨c, first, rows, _, fans⟩ := fans_out (.inl sends)
  have ⟨⟨ts, fans⟩, hc⟩ := fans _ resembles
  exact ⟨sends, resembles, hp, by decide +kernel, ⟨c, first, rows, ts, fans⟩, hc⟩

end RemoteScreen.Engine

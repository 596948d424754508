import RemoteScreen.Engine.Basic

/-!
How an engine streams its screen.

Each tick sends one chunk of whole rows to every session, and a pass over the screen takes as many
ticks as it has chunks. A pass begins only if the checksum of the screen is not the one taken when
the last pass began.
-/

namespace RemoteScreen.Engine

variable {σ : Type} [Host σ]

inductive TickOutcome
  | idle
  | unchanged
  -- A chunk cannot place the cells of so long a region.
  | oversized (regionLength : Nat)
  -- A chunk was offered to every session, and all were delivered.
  | sent (firstRow rows delivered : Nat)
deriving DecidableEq, Repr

-- Drops the sessions that have been idle for too long.
def reap (e : Engine σ) : Engine σ :=
  { e with sessions := (e.sessions.reap (Host.now e.host) e.config.sessionLifetime).2 }

def rewind (e : Engine σ) : Engine σ :=
  { e with scanRow := 0 }

-- Lets a pass begin if the screen has changed; a pass that has begun goes on.
def admitPass? (e : Engine σ) (display : Display) : Option (Engine σ) :=
  if e.scanRow = 0 then
    let checksum := display.checksum 0 display.state.regionLength
    if e.lastChecksum = some checksum then none else some { e with lastChecksum := some checksum }
  else some e

def nextRows (e : Engine σ) (state : DisplayState) : Nat :=
  min (e.config.rowsPerChunk state.cols.toNat) (state.rows.toNat - e.scanRow)

-- The header of a chunk of `rows` rows from the scan row on.
def chunkHeader (e : Engine σ) (state : DisplayState) (rows : Nat) : ChunkHeader where
  rows := state.rows
  cols := state.cols
  cursorRow := state.cursorRow
  cursorCol := state.cursorCol
  start := UInt16.ofNat (e.scanRow * state.rowLength)
  count := UInt16.ofNat (rows * state.rowLength)

-- Builds the frame with a chunk in the buffer, for no station yet.
def draftChunk (e : Engine σ) (display : Display) (rows : Nat) : Except Fault (Nat × Draft) :=
  let state := display.state
  let count := rows * state.rowLength
  match Draft.ofBuffer e.buffer with
  | .error fault => .error fault
  | .ok draft =>
    (((draft.writeHeaders ⟨.zero, e.identity, e.config.ethertype⟩ 0).writePayload 0
      (e.chunkHeader state rows).encode).writePayload chunkHeaderLength
        ((display.read (e.scanRow * state.rowLength) count).take count)).finish
      .screenChunk (chunkHeaderLength + count)

structure Tally where
  delivered : Nat := 0
  fault? : Option Fault := none

def countChunk (e : Engine σ) (tally : Tally) : Except Fault Unit → Tally × Engine σ
  | .ok () =>
    ({ tally with delivered := tally.delivered + 1 },
      { e with stats.chunksSent := e.stats.chunksSent + 1 })
  | .error fault =>
    ({ tally with fault? := tally.fault?.or (some fault) },
      { e with stats.transmitErrors := e.stats.transmitErrors + 1 })

-- Offers the finished frame to each session in turn, whatever the link says to the others.
def fanOut (length : Nat) : List Session → Draft → Tally → Engine σ → Tally × Engine σ
  | [], draft, tally, e => (tally, { e with buffer := draft.octets })
  | session :: rest, draft, tally, e =>
    let draft := draft.retarget session.identity session.nonce
    let (outcome, e) := e.transmit (draft.octets.take length)
    let (tally, e) := e.countChunk tally outcome
    fanOut length rest draft tally e

-- The row after `row`, or the top after the last row of a screen.
def rowAfter (rows row : Nat) : Nat :=
  if rows ≤ row then 0 else row

def sendChunk (e : Engine σ) (display : Display) : Except Fault TickOutcome × Engine σ :=
  let first := e.scanRow
  let rows := e.nextRows display.state
  match e.draftChunk display rows with
  | .error fault => (.error fault, e)
  | .ok (length, draft) =>
    let e := { e with scanRow := rowAfter display.state.rows.toNat (first + rows) }
    match fanOut length e.sessions.active draft {} e with
    | ({ fault? := some fault, .. }, e) => (.error fault, e)
    | ({ delivered, .. }, e) => (.ok (.sent first rows delivered), e)

def stream (e : Engine σ) (display : Display) : Except Fault TickOutcome × Engine σ :=
  let state := display.state
  if state.rows = 0 ∨ state.cols = 0 then (.ok .unchanged, e.rewind)
  else if 65535 < state.regionLength then (.ok (.oversized state.regionLength), e.rewind)
  else
    let e := { e with scanRow := rowAfter state.rows.toNat e.scanRow }
    match e.admitPass? display with
    | none =>
      (.ok .unchanged, { e with stats.unchangedSkips := e.stats.unchangedSkips + 1 })
    | some e => e.sendChunk display

-- Drops idle sessions and sends the next chunk of the screen.
def tick (e : Engine σ) : Except Fault TickOutcome × Engine σ :=
  let e := e.reap
  if e.sessions.isEmpty then (.ok .idle, e.rewind)
  else e.stream (Host.display e.host)

end RemoteScreen.Engine

import RemoteScreen.Chunk
import RemoteScreen.Frame.Draft
import RemoteScreen.Keystroke
import RemoteScreen.Session

/-!
The engine of a server: its settings, its counters, and the host it works for.

A host stands for all that is outside the engine: the link, the display, the keyboard queue and the
clock. Whatever the engine hands to the link or to the keyboard queue is entered in its journal with
the answer it got, so that what an engine did can be read off its state.
-/

namespace RemoteScreen

-- How long a session may be idle where nothing else is set.
def defaultSessionLifetime : UInt64 := 10000

-- The shortest frame limit that leaves room for one row of the widest screen.
def minMtu : Nat := headerLength + chunkHeaderLength + 255 * cellWidth

-- The world around an engine, whose state is a `σ`.
class Host (σ : Type) where
  identity : σ → Identity
  transmit : Octets → σ → Except Fault Unit × σ
  inject : Keystroke → σ → Except Fault Unit × σ
  display : σ → Display
  now : σ → UInt64

structure Transmission where
  frame : Octets
  outcome : Except Fault Unit

structure Injection where
  key : Keystroke
  outcome : Except Fault Unit

def succeeded : Except Fault Unit → Bool
  | .ok _ => true
  | .error _ => false

-- What an engine handed out, oldest first.
structure Journal where
  transmissions : List Transmission := []
  injections : List Injection := []

namespace Journal

def sent (j : Journal) : List Octets :=
  (j.transmissions.filter (succeeded ·.outcome)).map Transmission.frame

def typed (j : Journal) : List Keystroke :=
  (j.injections.filter (succeeded ·.outcome)).map Injection.key

end Journal

structure EngineConfig where
  -- The tag of every frame sent, and of every frame heeded.
  ethertype : UInt16 := defaultEthertype
  mtu : Nat := maxFrameLength
  sessionLifetime : UInt64 := defaultSessionLifetime
  sessions : Nat := defaultSessions
deriving DecidableEq, Repr, Inhabited

namespace EngineConfig

-- The frame limit, brought between the shortest that works and the longest that can be sent.
def effectiveMtu (c : EngineConfig) : Nat :=
  max minMtu (min c.mtu maxJumboLength)

-- Whole rows of `cols` cells that fit one chunk, but never none.
def rowsPerChunk (c : EngineConfig) (cols : Nat) : Nat :=
  max 1 ((c.effectiveMtu - headerLength - chunkHeaderLength) / max (cols * cellWidth) 1)

-- Like `rowsPerChunk`; there is no answer for rows whose end has no position.
def rowsPerChunk? (c : EngineConfig) (cols : Nat) : Option Nat :=
  if cols * cellWidth < Octets.positionLimit then some (c.rowsPerChunk cols) else none

def describe (c : EngineConfig) : String :=
  Record.whole "EngineConfig" [
    ("ethertype", toString c.ethertype.toNat),
    ("mtu", toString c.mtu),
    ("session_lifetime", toString c.sessionLifetime.toNat),
    ("sessions", toString c.sessions)]

end EngineConfig

-- Counters that only grow, modulo their width.
structure EngineStats where
  -- Frames that were in order and went to a handler.
  processed : UInt64 := 0
  -- Frames that were not for this engine, or came without the session they need.
  rejected : UInt64 := 0
  sessionsRejected : UInt64 := 0
  keystrokes : UInt64 := 0
  chunksSent : UInt64 := 0
  unchangedSkips : UInt64 := 0
  transmitErrors : UInt64 := 0
deriving DecidableEq, Repr, Inhabited

def EngineStats.describe (s : EngineStats) : String :=
  Record.whole "EngineStats" [
    ("processed", toString s.processed.toNat),
    ("rejected", toString s.rejected.toNat),
    ("sessions_rejected", toString s.sessionsRejected.toNat),
    ("keystrokes", toString s.keystrokes.toNat),
    ("chunks_sent", toString s.chunksSent.toNat),
    ("unchanged_skips", toString s.unchangedSkips.toNat),
    ("transmit_errors", toString s.transmitErrors.toNat)]

structure Engine (σ : Type) where
  config : EngineConfig
  identity : Identity
  sessions : SessionTable
  host : σ
  -- Row at which the next chunk begins.
  scanRow : Nat := 0
  -- Checksum of the screen when the last pass over it began.
  lastChecksum : Option UInt32 := none
  buffer : Octets
  stats : EngineStats := {}
  journal : Journal := {}

namespace Engine

variable {σ : Type} [Host σ]

-- A new engine. Its buffer holds a whole frame whatever the frame limit for chunks is, so that a
-- reply fits to anything that can be received.
def make (config : EngineConfig) (host : σ) : Except Fault (Engine σ) :=
  match SessionTable.make config.sessions with
  | .error fault => .error fault
  | .ok sessions =>
    .ok {
      config
      identity := Host.identity host
      sessions
      host
      buffer := Octets.zeros (max config.effectiveMtu maxFrameLength) }

def transmit (e : Engine σ) (frame : Octets) : Except Fault Unit × Engine σ :=
  let (outcome, host) := Host.transmit frame e.host
  (outcome, { e with
    host
    journal.transmissions := e.journal.transmissions ++ [⟨frame, outcome⟩] })

-- Hands a keystroke to the keyboard queue, and counts it if it was taken.
def inject (e : Engine σ) (key : Keystroke) : Except Fault Unit × Engine σ :=
  let (outcome, host) := Host.inject key e.host
  (outcome, { e with
    host
    journal.injections := e.journal.injections ++ [⟨key, outcome⟩]
    stats.keystrokes := if succeeded outcome then e.stats.keystrokes + 1 else e.stats.keystrokes })

def forget (e : Engine σ) : Engine σ :=
  { e with journal := {} }

def describe (e : Engine σ) : String :=
  Record.partly "Engine" [
    ("identity", e.identity.describe),
    ("config", e.config.describe),
    ("sessions", toString e.sessions.activeCount),
    ("scan_row", toString e.scanRow),
    ("stats", e.stats.describe)]

end Engine

end RemoteScreen

import RemoteScreen.Config.Server
import RemoteScreen.Engine.Station
import RemoteScreen.Link
import RemoteScreen.Screen.Console

/-!
A whole server: a screen with a keyboard, the link to its viewers, and the station between them.
-/

namespace RemoteScreen

-- What a server's engine works for: the link, the screen that is both display and keyboard, and a
-- clock.
structure Premises where
  link : Link
  screen : Screen
  clock : UInt64 := 0

namespace Premises

def transmit (frame : Octets) (p : Premises) : Except Fault Unit × Premises :=
  let (outcome, link) := p.link.transmit frame
  (outcome, { p with link })

instance : Host Premises where
  identity p := p.link.identity
  transmit := transmit
  inject key p := (.ok (), { p with screen := p.screen.echo key })
  display p := p.screen.display
  now := clock

end Premises

abbrev Server := Station Premises

namespace Server

-- Starts a server as it is configured, on a network. The settings are judged in this order:
-- identity, own address, broadcast address, shape of the screen.
def start (config : ServerConfig) (network : Network) : Except Fault Server := do
  let identity ← config.station
  let _ ← config.bindAddress
  let broadcast ← config.broadcastAddress
  let screen ← Screen.make config.rows config.cols
  let screen := (screen.setMode config.mode).write config.banner
  let pool ← Pool.make config.poolSize
  let link : Link :=
    { identity, ethertype := config.ethertype, broadcast, socket.network := network }
  let engine ← Engine.make config.engineConfig ({ link, screen } : Premises)
  return ⟨engine, pool⟩

def screen (s : Server) : Screen :=
  s.engine.host.screen

def link (s : Server) : Link :=
  s.engine.host.link

def updateScreen (s : Server) (f : Screen → Screen) : Server :=
  { s with engine.host.screen := f s.screen }

-- Takes a datagram in and handles what is ready.
def accept (s : Server) (datagram : Datagram) : Server :=
  let (link, pool) := s.link.accept s.pool datagram
  let taken : Server := ⟨{ s.engine with host.link := link }, pool⟩
  taken.drain.2

-- Ticks, no more than `budget` times, until there is nothing left to send.
def settleWithin : (budget : Nat) → Server → Server
  | 0, s => s
  | budget + 1, s =>
    match s.tick with
    | (.ok (.sent ..), s) => settleWithin budget s
    | (.error _, s) => settleWithin budget s
    | (.ok _, s) => s

-- Ticks until there is nothing left to send. A pass that has begun and one after it take no more
-- ticks than there are rows.
def settle (s : Server) : Server :=
  settleWithin (2 * s.screen.rows.toNat + 1) s

-- The datagrams sent since they were last collected, and the server without them.
def collectSent (s : Server) : List Datagram × Server :=
  (s.link.socket.sent, { s with engine.host.link.socket.sent := [] })

end Server

end RemoteScreen

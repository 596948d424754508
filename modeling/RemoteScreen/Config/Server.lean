import RemoteScreen.Address.Reader
import RemoteScreen.Config.Section
import RemoteScreen.Engine.Basic
import RemoteScreen.Pool

/-!
The configuration of a server.
-/

namespace RemoteScreen

structure ServerConfig where
  bind : String := "0.0.0.0:8055"
  -- Where frames for all stations go.
  broadcast : String := "255.255.255.255:8055"
  identity : String := "02:00:00:00:80:ab"
  ethertype : UInt16 := defaultEthertype
  buffers : Nat := defaultBuffers
  sessions : Nat := defaultSessions
  -- Milliseconds that a session may be idle.
  sessionLifetime : UInt64 := defaultSessionLifetime
  -- Milliseconds between ticks.
  tickInterval : UInt64 := 55
  mtu : Nat := maxFrameLength
  rows : UInt8 := 25
  cols : UInt8 := 80
  mode : UInt8 := textMode
  -- What the screen shows at first.
  banner : String := "rmtdos server ready\n"
  logLevel : String := "info"
deriving DecidableEq, Repr, Inhabited

namespace ServerConfig

def ofEntries? (document : Toml.Entries) : Option ServerConfig := do
  let base : ServerConfig := {}
  let network ← Config.find? document "network" ["bind", "broadcast", "identity", "ethertype"]
  let engine ← Config.find? document "engine"
    ["buffers", "sessions", "session_lifetime_ms", "tick_interval_ms", "mtu"]
  let screen ← Config.find? document "screen" ["rows", "cols", "mode", "banner"]
  let logging ← Config.find? document "logging" ["level"]
  let bind ← Config.text? network "bind" base.bind
  let broadcast ← Config.text? network "broadcast" base.broadcast
  let identity ← Config.text? network "identity" base.identity
  let ethertype ← Config.count? network "ethertype" 65536 base.ethertype.toNat
  let buffers ← Config.count? engine "buffers" UInt64.size base.buffers
  let sessions ← Config.count? engine "sessions" UInt64.size base.sessions
  let sessionLifetime ←
    Config.count? engine "session_lifetime_ms" UInt64.size base.sessionLifetime.toNat
  let tickInterval ← Config.count? engine "tick_interval_ms" UInt64.size base.tickInterval.toNat
  let mtu ← Config.count? engine "mtu" UInt64.size base.mtu
  let rows ← Config.count? screen "rows" 256 base.rows.toNat
  let cols ← Config.count? screen "cols" 256 base.cols.toNat
  let mode ← Config.count? screen "mode" 256 base.mode.toNat
  let banner ← Config.text? screen "banner" base.banner
  let logLevel ← Config.text? logging "level" base.logLevel
  return {
    bind, broadcast, identity, buffers, sessions, mtu, banner, logLevel
    ethertype := .ofNat ethertype
    sessionLifetime := .ofNat sessionLifetime
    tickInterval := .ofNat tickInterval
    rows := .ofNat rows
    cols := .ofNat cols
    mode := .ofNat mode }

-- The configuration in a file. If there is no file, or it cannot be used, all settings have their
-- defaults.
def load (file? : Option Octets) : ServerConfig :=
  (do ofEntries? (← Toml.parse? (← Config.fileText? (← file?)))).getD {}

def sections (c : ServerConfig) : Config.Sections := [
    ("network", [
      ("bind", .text c.bind),
      ("broadcast", .text c.broadcast),
      ("identity", .text c.identity),
      ("ethertype", .count c.ethertype.toNat)]),
    ("engine", [
      ("buffers", .count c.buffers),
      ("sessions", .count c.sessions),
      ("session_lifetime_ms", .count c.sessionLifetime.toNat),
      ("tick_interval_ms", .count c.tickInterval.toNat),
      ("mtu", .count c.mtu)]),
    ("screen", [
      ("rows", .count c.rows.toNat),
      ("cols", .count c.cols.toNat),
      ("mode", .count c.mode.toNat),
      ("banner", .text c.banner)]),
    ("logging", [
      ("level", .text c.logLevel)])
  ]

def render (c : ServerConfig) : String :=
  Config.render c.sections

def bindAddress (c : ServerConfig) : Except Fault Address :=
  Address.ofSetting "bind" c.bind

def broadcastAddress (c : ServerConfig) : Except Fault Address :=
  Address.ofSetting "broadcast" c.broadcast

def station (c : ServerConfig) : Except Fault Identity :=
  Identity.ofSetting c.identity

-- Buffers that the pool gets: one at least, and no more than it supports.
def poolSize (c : ServerConfig) : Nat :=
  max 1 (min c.buffers maxBuffers)

-- Milliseconds between ticks, never none.
def tickPeriod (c : ServerConfig) : UInt64 :=
  max c.tickInterval 1

def engineConfig (c : ServerConfig) : EngineConfig where
  ethertype := c.ethertype
  mtu := c.mtu
  sessionLifetime := c.sessionLifetime
  sessions := max c.sessions 1

end ServerConfig

end RemoteScreen

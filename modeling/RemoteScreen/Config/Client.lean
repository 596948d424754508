import RemoteScreen.Address.Reader
import RemoteScreen.Config.Section
import RemoteScreen.Frame.Header

/-!
The configuration of a client.
-/

namespace RemoteScreen

structure ClientConfig where
  bind : String := "0.0.0.0:0"
  -- Where frames for one station go.
  server : String := "127.0.0.1:8055"
  -- Where frames for all stations go.
  broadcast : String := "255.255.255.255:8055"
  identity : String := "02:00:00:00:42:01"
  ethertype : UInt16 := defaultEthertype
  -- Milliseconds to wait for answers.
  timeout : UInt64 := 1000
  -- Milliseconds between session refreshes.
  keepalive : UInt64 := 1000
  -- Each line typed ends with Enter.
  newline : Bool := true
  logLevel : String := "warn"
deriving DecidableEq, Repr, Inhabited

namespace ClientConfig

def ofEntries? (document : Toml.Entries) : Option ClientConfig := do
  let base : ClientConfig := {}
  let network ← Config.find? document "network"
    ["bind", "server", "broadcast", "identity", "ethertype", "timeout_ms"]
  let watch ← Config.find? document "watch" ["keepalive_ms", "newline"]
  let logging ← Config.find? document "logging" ["level"]
  let bind ← Config.text? network "bind" base.bind
  let server ← Config.text? network "server" base.server
  let broadcast ← Config.text? network "broadcast" base.broadcast
  let identity ← Config.text? network "identity" base.identity
  let ethertype ← Config.count? network "ethertype" 65536 base.ethertype.toNat
  let timeout ← Config.count? network "timeout_ms" UInt64.size base.timeout.toNat
  let keepalive ← Config.count? watch "keepalive_ms" UInt64.size base.keepalive.toNat
  let newline ← Config.boolean? watch "newline" base.newline
  let logLevel ← Config.text? logging "level" base.logLevel
  return {
    bind, server, broadcast, identity, newline, logLevel
    ethertype := .ofNat ethertype
    timeout := .ofNat timeout
    keepalive := .ofNat keepalive }

-- The configuration in a file. If there is no file, or it cannot be used, all settings have their
-- defaults.
def load (file? : Option Octets) : ClientConfig :=
  (do ofEntries? (← Toml.parse? (← Config.fileText? (← file?)))).getD {}

def sections (c : ClientConfig) : Config.Sections := [
    ("network", [
      ("bind", .text c.bind),
      ("server", .text c.server),
      ("broadcast", .text c.broadcast),
      ("identity", .text c.identity),
      ("ethertype", .count c.ethertype.toNat),
      ("timeout_ms", .count c.timeout.toNat)]),
    ("watch", [
      ("keepalive_ms", .count c.keepalive.toNat),
      ("newline", .boolean c.newline)]),
    ("logging", [
      ("level", .text c.logLevel)])
  ]

def render (c : ClientConfig) : String :=
  Config.render c.sections

def bindAddress (c : ClientConfig) : Except Fault Address :=
  Address.ofSetting "bind" c.bind

def serverAddress (c : ClientConfig) : Except Fault Address :=
  Address.ofSetting "server" c.server

def broadcastAddress (c : ClientConfig) : Except Fault Address :=
  Address.ofSetting "broadcast" c.broadcast

def station (c : ClientConfig) : Except Fault Identity :=
  Identity.ofSetting c.identity

-- Milliseconds to wait for answers, never none.
def wait (c : ClientConfig) : UInt64 :=
  max c.timeout 1

-- Milliseconds between session refreshes, ten at least.
def refreshPeriod (c : ClientConfig) : UInt64 :=
  max c.keepalive 10

end ClientConfig

end RemoteScreen

import RemoteScreen.Config.Client
import RemoteScreen.Display
import RemoteScreen.Frame.Codec
import RemoteScreen.Keystroke
import RemoteScreen.Socket

/-!
The viewer's end of the link: finding servers, pinging them, and sending session starts and keys.

A client waits for answers until a deadline. What arrives at its socket before that is in the
socket's queue, and running out of it is the deadline.
-/

namespace RemoteScreen

def keysPerFrame : Nat := maxPayloadLength / keystrokeLength

structure Discovered where
  identity : Identity
  address : Address
  state : DisplayState
deriving DecidableEq, Repr

structure Client where
  identity : Identity
  -- Where frames for one station go.
  server : Address
  -- Where frames for all stations go.
  broadcast : Address
  ethertype : UInt16 := defaultEthertype
  -- The nonce drawn last.
  nonce : UInt32 := 0
  socket : Socket := {}
deriving DecidableEq, Repr

namespace Client

-- Starts a client as it is configured, on a network. The settings are judged in this order:
-- identity, server, broadcast address, own address.
def start (config : ClientConfig) (network : Network) : Except Fault Client := do
  let identity ← config.station
  let server ← config.serverAddress
  let broadcast ← config.broadcastAddress
  let _ ← config.bindAddress
  return { identity, server, broadcast, ethertype := config.ethertype, socket.network := network }

def codec (c : Client) : Codec :=
  ⟨c.ethertype⟩

-- Sends frames for one station to another address from now on.
def setServer (c : Client) (server : Address) : Client :=
  { c with server }

-- Draws the nonce after the last one; they wrap at their width.
def drawNonce (c : Client) : UInt32 × Client :=
  let nonce := c.nonce + 1
  (nonce, { c with nonce })

def addressOf (c : Client) (destination : Identity) : Address :=
  if destination = .broadcast then c.broadcast else c.server

def send (c : Client) (destination : Identity) (kind : MessageKind) (nonce : UInt32)
    (payload : Octets) : Except Fault Unit × Client :=
  match Frame.make ⟨destination, c.identity, c.ethertype⟩ nonce kind payload with
  | .error fault => (.error fault, c)
  | .ok frame =>
    match c.codec.encode frame [] with
    | .error fault => (.error fault, c)
    | .ok octets =>
      let (outcome, socket) := c.socket.send (c.addressOf destination) octets
      (outcome, { c with socket })

-- The frame in a datagram, if it is meant for this client or for all.
def frameFor? (c : Client) (datagram : Datagram) : Option (Frame × Address) :=
  match c.codec.read? datagram.octets with
  | none => none
  | some frame =>
    if frame.link.destination = c.identity ∨ frame.link.destination = .broadcast then
      some (frame, datagram.peer)
    else none

def awaiting (c : Client) (arrivals : List Datagram) : Client :=
  { c with socket.arrivals := arrivals }

-- The first frame for this client in a queue, and what is behind it.
def firstFrame (c : Client) : List Datagram → Option (Frame × Address) × List Datagram
  | [] => (none, [])
  | datagram :: rest =>
    match c.frameFor? datagram with
    | some found => (some found, rest)
    | none => c.firstFrame rest

-- The next frame for this client, unless the deadline comes first.
def receive (c : Client) : Option (Frame × Address) × Client :=
  let (found, rest) := c.firstFrame c.socket.arrivals
  (found, c.awaiting rest)

def receiveAll (c : Client) : List (Frame × Address) × Client :=
  (c.socket.arrivals.filterMap c.frameFor?, c.awaiting [])

-- Goes through a queue for the answers to a status request. An answer too short to hold a display
-- state ends the search.
def collect (c : Client) (nonce : UInt32) :
    List Discovered → List Datagram → Except Fault (List Discovered) × List Datagram
  | found, [] => (.ok found, [])
  | found, datagram :: rest =>
    match c.frameFor? datagram with
    | none => c.collect nonce found rest
    | some (frame, address) =>
      if frame.kind ≠ .statusResponse ∨ frame.nonce ≠ nonce then c.collect nonce found rest
      else
        match DisplayState.decode frame.payload with
        | .error fault => (.error fault, rest)
        | .ok state =>
          if found.any (·.identity = frame.link.source) then c.collect nonce found rest
          else c.collect nonce (found ++ [⟨frame.link.source, address, state⟩]) rest

-- Asks all stations for their state and collects the answers until the deadline.
def discover (c : Client) : Except Fault (List Discovered) × Client :=
  let (nonce, c) := c.drawNonce
  match c.send .broadcast .statusRequest nonce [] with
  | (.error fault, c) => (.error fault, c)
  | (.ok (), c) =>
    let (found, rest) := c.collect nonce [] c.socket.arrivals
    (found, c.awaiting rest)

-- The frame answers the ping that was sent to `target` under `nonce`.
def isPong (target : Identity) (nonce : UInt32) (frame : Frame) : Bool :=
  frame.kind = .pong ∧ frame.nonce = nonce ∧ frame.link.source = target

def awaitPong (c : Client) (target : Identity) (nonce : UInt32) :
    List Datagram → Bool × List Datagram
  | [] => (false, [])
  | datagram :: rest =>
    match c.frameFor? datagram with
    | some (frame, _) =>
      if isPong target nonce frame then (true, rest) else c.awaitPong target nonce rest
    | none => c.awaitPong target nonce rest

-- Pings a station, and says whether it answered before the deadline.
def ping (c : Client) (target : Identity) (payload : Octets) : Except Fault Bool × Client :=
  let (nonce, c) := c.drawNonce
  match c.send target .ping nonce payload with
  | (.error fault, c) => (.error fault, c)
  | (.ok (), c) =>
    let (answered, rest) := c.awaitPong target nonce c.socket.arrivals
    (.ok answered, c.awaiting rest)

-- Asks a station to start or refresh the session with this nonce.
def startSession (c : Client) (target : Identity) (nonce : UInt32) : Except Fault Unit × Client :=
  c.send target .sessionStart nonce []

-- The keys in batches, each filling a frame but perhaps the last.
def batches (keys : List Keystroke) : List (List Keystroke) :=
  if _h : keys = [] then []
  else keys.take keysPerFrame :: batches (keys.drop keysPerFrame)
termination_by keys.length
decreasing_by
  have := List.length_pos_iff.mpr _h
  simp [keysPerFrame, maxPayloadLength, maxFrameLength, headerLength, linkHeaderLength,
    protocolHeaderLength, keystrokeLength]
  omega

-- Sends a frame for each batch until one fails.
def sendBatches (c : Client) (target : Identity) (nonce : UInt32) :
    List (List Keystroke) → Except Fault Unit × Client
  | [] => (.ok (), c)
  | batch :: rest =>
    match c.send target .injectKeystroke nonce (Keystroke.encodeAll batch) with
    | (.error fault, c) => (.error fault, c)
    | (.ok (), c) => c.sendBatches target nonce rest

-- Sends keys to a session, and says how many frames it took.
def sendKeys (c : Client) (target : Identity) (nonce : UInt32) (keys : List Keystroke) :
    Except Fault Nat × Client :=
  match c.sendBatches target nonce (batches keys) with
  | (.error fault, c) => (.error fault, c)
  | (.ok (), c) => (.ok (batches keys).length, c)

end Client

end RemoteScreen

import RemoteScreen.Pool
import RemoteScreen.Routes
import RemoteScreen.Socket

/-!
A link whose frames travel in datagrams, one in each, link header included.

The link learns from which address each station sends, and sends frames for that station there.
Frames for all stations go to the broadcast address.
-/

namespace RemoteScreen

structure Link where
  identity : Identity
  ethertype : UInt16 := defaultEthertype
  -- Where frames for all stations go.
  broadcast : Address
  routes : Routes := {}
  socket : Socket := {}
deriving DecidableEq, Repr

namespace Link

def route (l : Link) (frame : Octets) : Except Fault Address :=
  match LinkHeader.decode frame with
  | .error fault => .error fault
  | .ok header =>
    if header.destination = .broadcast then .ok l.broadcast
    else
      match l.routes.lookup? header.destination with
      | some address => .ok address
      | none => .error (.transmission ("no route to " ++ header.destination.text))

def transmit (l : Link) (frame : Octets) : Except Fault Unit × Link :=
  match l.route frame with
  | .error fault => (.error fault, l)
  | .ok address =>
    let (outcome, socket) := l.socket.send address frame
    (outcome, { l with socket })

-- The station that sent a datagram, if its frame carries the link's tag and is not the link's own.
def sender? (l : Link) (datagram : Octets) : Option Identity :=
  match LinkHeader.decode datagram with
  | .error _ => none
  | .ok header =>
    if header.ethertype = l.ethertype ∧ header.source ≠ l.identity then some header.source
    else none

-- Takes a datagram in: its sender's address is learned and its frame goes to the pool. Only as much
-- of it is read as the longest frame takes.
def accept (l : Link) (pool : Pool) (datagram : Datagram) : Link × Pool :=
  let frame := datagram.octets.take maxFrameLength
  match l.sender? frame with
  | none => (l, pool)
  | some station =>
    ({ l with routes := l.routes.learn station datagram.peer }, (pool.receive frame).2)

end Link

end RemoteScreen

import RemoteScreen.Address.Basic
import RemoteScreen.Fault

/-!
A datagram socket: the datagrams that have arrived and wait to be read, and those sent.
-/

namespace RemoteScreen

structure Datagram where
  -- Where it came from, or where it goes.
  peer : Address
  octets : Octets
deriving DecidableEq, Repr

inductive Network
  | open
  | unreachable
deriving DecidableEq, Repr

def Network.refusal? : Network → Option String
  | .open => none
  | .unreachable => some "Network is unreachable (os error 101)"

structure Socket where
  network : Network := .open
  -- Not yet read, oldest first.
  arrivals : List Datagram := []
  -- Sent, oldest first.
  sent : List Datagram := []
deriving DecidableEq, Repr

namespace Socket

def send (s : Socket) (peer : Address) (octets : Octets) : Except Fault Unit × Socket :=
  match s.network.refusal? with
  | some cause => (.error (.transmission cause), s)
  | none => (.ok (), { s with sent := s.sent ++ [⟨peer, octets⟩] })

def deliver (s : Socket) (datagrams : List Datagram) : Socket :=
  { s with arrivals := s.arrivals ++ datagrams }

end Socket

end RemoteScreen

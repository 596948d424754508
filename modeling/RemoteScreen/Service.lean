import RemoteScreen.Engine.Mainline
import RemoteScreen.Server

/-!
A server whose receiver and mainline run side by side.

The receiver has one datagram in hand at a time: it learns where the sender is, and then puts the
frame into the pool. Before and between the two the mainline may go on, and so may the screen and
the clock.
-/

namespace RemoteScreen

structure Service where
  mainline : Mainline Premises
  -- The frame that is on its way to the pool.
  incoming : Option Octets := none

namespace Service

def start (s : Server) : Service :=
  { mainline := .start s.engine s.pool }

def server (s : Service) : Server :=
  ⟨s.mainline.engine, s.mainline.circulation.pool⟩

def premises (s : Service) : Premises :=
  s.mainline.engine.host

inductive Event
  | hear (datagram : Datagram)
  | handOver
  | take
  | release
  | tick
  | paint (screen : Screen)
  | clock (now : UInt64)

-- Takes a datagram in hand, unless it is one that the link takes no notice of.
def hear (s : Service) (datagram : Datagram) : Service :=
  let frame := datagram.octets.take maxFrameLength
  match s.incoming, s.premises.link.sender? frame with
  | none, some station =>
    let routes := s.premises.link.routes.learn station datagram.peer
    ⟨s.mainline.step (.change { s.premises with link.routes := routes }), some frame⟩
  | _, _ => s

def handOver (s : Service) : Service :=
  match s.incoming with
  | none => s
  | some frame => ⟨s.mainline.step (.receive frame), none⟩

def step (s : Service) : Event → Service
  | .hear datagram => s.hear datagram
  | .handOver => s.handOver
  | .take => { s with mainline := s.mainline.step .take }
  | .release => { s with mainline := s.mainline.step .release }
  | .tick => { s with mainline := s.mainline.step .tick }
  | .paint screen =>
    { s with mainline := s.mainline.step (.change { s.premises with screen }) }
  | .clock now =>
    { s with mainline := s.mainline.step (.change { s.premises with clock := now }) }

def run (s : Service) (events : List Event) : Service :=
  events.foldl step s

end Service

end RemoteScreen

import RemoteScreen.Client

/-!
What a client goes through: datagrams that arrive, changes of the world around it, and the calls
made on it, in any order.

A call that waits is done with what is in the queue. A datagram that comes while the call waits
therefore counts among those that arrived before the call, and one that comes too late for it among
those that arrive after.
-/

namespace RemoteScreen.Client

inductive Event
  -- Any datagrams, in the order in which the network lets them come.
  | arrive (datagrams : List Datagram)
  | change (network : Network)
  | setServer (server : Address)
  | drawNonce
  | send (destination : Identity) (kind : MessageKind) (nonce : UInt32) (payload : Octets)
  | receive
  | startSession (target : Identity) (nonce : UInt32)
  | sendKeys (target : Identity) (nonce : UInt32) (keys : List Keystroke)
  | discover
  | ping (target : Identity) (payload : Octets)

namespace Event

def draws : Event → Bool
  | drawNonce | discover | ping _ _ => true
  | _ => false

-- The call sends a request and waits for what answers it.
def asks : Event → Bool
  | discover | ping _ _ => true
  | _ => false

end Event

-- What a call gives back.
inductive Answer
  | none
  | nonce (nonce : UInt32)
  | sent (outcome : Except Fault Unit)
  | keysSent (outcome : Except Fault Nat)
  | received (found : Option (Frame × Address))
  | discovered (outcome : Except Fault (List Discovered))
  | pinged (outcome : Except Fault Bool)

def step (c : Client) : Event → Answer × Client
  | .arrive datagrams => (.none, { c with socket := c.socket.deliver datagrams })
  | .change network => (.none, { c with socket.network := network })
  | .setServer server => (.none, c.setServer server)
  | .drawNonce => c.drawNonce.map .nonce id
  | .send destination kind nonce payload => (c.send destination kind nonce payload).map .sent id
  | .receive => c.receive.map .received id
  | .startSession target nonce => (c.startSession target nonce).map .sent id
  | .sendKeys target nonce keys => (c.sendKeys target nonce keys).map .keysSent id
  | .discover => c.discover.map .discovered id
  | .ping target payload => (c.ping target payload).map .pinged id

def run (c : Client) (events : List Event) : Client :=
  events.foldl (fun c event => (c.step event).2) c

-- What the calls give back, in order.
def answers (c : Client) : List Event → List Answer
  | [] => []
  | event :: rest => (c.step event).1 :: answers (c.step event).2 rest

-- How many nonces are drawn.
def draws (events : List Event) : Nat :=
  events.countP Event.draws

end RemoteScreen.Client

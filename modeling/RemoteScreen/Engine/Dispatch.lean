import RemoteScreen.Engine.Basic

/-!
How an engine answers a frame that it received.

A frame counts as processed once it is in order, carries the engine's tag, is meant for this station
or for all, and is of a known kind; anything else is rejected. What a handler then fails at is
counted under the cause.
-/

namespace RemoteScreen.Engine

variable {σ : Type} [Host σ]

def countRejected (e : Engine σ) : Engine σ :=
  { e with stats.rejected := e.stats.rejected + 1 }

def countProcessed (e : Engine σ) : Engine σ :=
  { e with stats.processed := e.stats.processed + 1 }

-- Counts what a handler failed at; faults of other causes are passed over.
def countFault (e : Engine σ) : Fault → Engine σ
  | .tableFull _ => { e with stats.sessionsRejected := e.stats.sessionsRejected + 1 }
  | .unknownSession _ => e.countRejected
  | .transmission _ => { e with stats.transmitErrors := e.stats.transmitErrors + 1 }
  | _ => e

-- Builds a reply in the buffer and sends it, `atLeast` octets long if the buffer has them.
def answer (e : Engine σ) (frame : Received) (kind : MessageKind) (payload : Octets)
    (atLeast : Nat) : Except Fault Unit × Engine σ :=
  match buildReply e.buffer frame e.identity e.config.ethertype kind payload with
  | (.error fault, buffer) => (.error fault, { e with buffer })
  | (.ok length, buffer) =>
    { e with buffer }.transmit (buffer.take (max length atLeast))

-- Sends the payload back in a frame as long as the one received.
def handlePing (e : Engine σ) (frame : Received) : Except Fault Unit × Engine σ :=
  e.answer frame .pong frame.payload frame.length

def handleStatusRequest (e : Engine σ) (frame : Received) : Except Fault Unit × Engine σ :=
  e.answer frame .statusResponse (Host.display e.host).state.encode 0

-- A new viewer has nothing yet, so the next pass goes out even if the screen is unchanged.
def handleSessionStart (e : Engine σ) (frame : Received) : Except Fault Unit × Engine σ :=
  match e.sessions.start frame.source frame.nonce (Host.now e.host) with
  | .error fault => (.error fault, e)
  | .ok (.created, sessions) => (.ok (), { e with sessions, lastChecksum := none })
  | .ok (.refreshed, sessions) => (.ok (), { e with sessions })

-- Passes keystrokes on until one is refused.
def injectAll (e : Engine σ) : List Keystroke → Except Fault Unit × Engine σ
  | [] => (.ok (), e)
  | key :: rest =>
    match e.inject key with
    | (.error fault, e) => (.error fault, e)
    | (.ok (), e) => e.injectAll rest

def handleInject (e : Engine σ) (frame : Received) : Except Fault Unit × Engine σ :=
  e.injectAll (Keystroke.records frame.payload)

def route (e : Engine σ) (kind : MessageKind) (frame : Received) :
    Except Fault Unit × Engine σ :=
  if kind.requiresSession ∧ (e.sessions.find? frame.source frame.nonce).isNone then
    (.error (.unknownSession frame.nonce), e)
  else
    match kind with
    | .ping => e.handlePing frame
    | .statusRequest => e.handleStatusRequest frame
    | .sessionStart => e.handleSessionStart frame
    | .injectKeystroke => e.handleInject frame
    | .noop | .pong | .statusResponse | .screenChunk => (.ok (), e)

-- A signed frame with the engine's tag, for this station or for all, and of a known kind.
def admitted? (e : Engine σ) (raw : Octets) : Option (MessageKind × Received) :=
  match Received.parse raw with
  | .error _ => none
  | .ok frame =>
    if frame.link.ethertype ≠ e.config.ethertype then none
    else if frame.link.destination ≠ e.identity ∧ frame.link.destination ≠ .broadcast then none
    else (MessageKind.ofNumber? frame.header.kind).map (·, frame)

def dispatch (e : Engine σ) (raw : Octets) : Engine σ :=
  match e.admitted? raw with
  | none => e.countRejected
  | some (kind, frame) =>
    match e.countProcessed.route kind frame with
    | (.ok (), e) => e
    | (.error fault, e) => e.countFault fault

end RemoteScreen.Engine

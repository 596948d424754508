import RemoteScreen.Frame.Header

/-!
Frames as they come off the link, before their kind is known.

The payload is as long as the header declares, but no longer than what arrived and no longer than
the limit the reader sets; a sender that declares less than it sent has the tail left out.
-/

namespace RemoteScreen

-- A signed frame read from what the link handed over.
structure Received where
  link : LinkHeader
  header : ProtocolHeader
  payload : Octets
  -- Octets handed over by the link, filling included.
  length : Nat
deriving DecidableEq, Repr

namespace Received

def parseUpTo (limit : Nat) (raw : Octets) : Except Fault Received :=
  match LinkHeader.take? raw with
  | none => .error (.tooShort headerLength raw.length)
  | some (link, rest) =>
    match ProtocolHeader.take? rest with
    | none => .error (.tooShort headerLength raw.length)
    | some (header, body) =>
      match header.validate with
      | .error fault => .error fault
      | .ok () =>
        .ok {
          link
          header
          payload := body.take (min header.payloadLength.toNat limit)
          length := raw.length }

def parse (raw : Octets) : Except Fault Received :=
  parseUpTo maxPayloadLength raw

def kind (r : Received) : Except Fault MessageKind :=
  MessageKind.ofNumber r.header.kind

def source (r : Received) : Identity :=
  r.link.source

def nonce (r : Received) : UInt32 :=
  r.header.nonce

def describe (r : Received) : String :=
  Record.whole "FrameView" [
    ("source", r.link.source.describe),
    ("destination", r.link.destination.describe),
    ("nonce", Hexadecimal.word32 r.header.nonce),
    ("message_type", toString r.header.kind.toNat),
    ("payload_len", toString r.payload.length),
    ("received", toString r.length)]

end Received

end RemoteScreen

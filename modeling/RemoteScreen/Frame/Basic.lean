import RemoteScreen.Frame.Received

/-!
Whole frames of a known kind, as clients make and read them.
-/

namespace RemoteScreen

structure Frame where
  link : LinkHeader
  nonce : UInt32
  kind : MessageKind
  payload : Octets
deriving DecidableEq, Repr

namespace Frame

-- A frame whose payload fits the link.
def make (link : LinkHeader) (nonce : UInt32) (kind : MessageKind) (payload : Octets) :
    Except Fault Frame :=
  if maxPayloadLength < payload.length then
    .error (.payloadTooLarge payload.length maxPayloadLength)
  else .ok ⟨link, nonce, kind, payload⟩

def encodedLength (f : Frame) : Nat :=
  headerLength + f.payload.length

-- The length field counts modulo its sixteen bits.
def encode (f : Frame) : Octets :=
  f.link.encode ++ ((ProtocolHeader.signed f.nonce (UInt16.ofNat f.payload.length)
    f.kind.number).encode ++ f.payload)

-- Reads a frame, jumbo frames included.
def ofOctets (raw : Octets) : Except Fault Frame :=
  match Received.parseUpTo (maxJumboLength - headerLength) raw with
  | .error fault => .error fault
  | .ok received =>
    match received.kind with
    | .error fault => .error fault
    | .ok kind => .ok ⟨received.link, received.nonce, kind, received.payload⟩

@[simp]
theorem length_encode (f : Frame) : f.encode.length = f.encodedLength := by
  simp [encode, encodedLength, headerLength]
  omega

def describe (f : Frame) : String :=
  Record.whole "Frame" [
    ("link", f.link.describe),
    ("nonce", Hexadecimal.word32 f.nonce),
    ("message_type", f.kind.name),
    ("payload_len", toString f.payload.length)]

end Frame

end RemoteScreen

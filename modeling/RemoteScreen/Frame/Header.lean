import RemoteScreen.Identity
import RemoteScreen.MessageKind
import RemoteScreen.Text.Record

/-!
The two headers at the front of every frame.

The link header says which stations a frame goes between and tags the traffic it belongs to. The
protocol header signs the frame, carries the nonce that its sender chose, and says how long the
payload is and what kind of message it makes. The main statements say that decoding undoes
encoding, whatever follows the header.
-/

namespace RemoteScreen

def linkHeaderLength : Nat := 14

def protocolHeaderLength : Nat := 12

def headerLength : Nat := linkHeaderLength + protocolHeaderLength

def maxFrameLength : Nat := 1514

def maxPayloadLength : Nat := maxFrameLength - headerLength

-- The longest frame on links set up for jumbo frames, which only servers send.
def maxJumboLength : Nat := 9014

-- The link type tag in use where nothing else is set.
def defaultEthertype : UInt16 := 0x80ab

-- The word that marks a frame of this protocol among others with the same tag.
def signature : UInt32 := 0x7b6e05b0

structure LinkHeader where
  destination : Identity
  source : Identity
  ethertype : UInt16
deriving DecidableEq, Repr, Inhabited

namespace LinkHeader

def encode (h : LinkHeader) : Octets :=
  h.destination.octets ++ (h.source.octets ++ Octets.ofWord16 h.ethertype)

def take? (octets : Octets) : Option (LinkHeader × Octets) := do
  let (destination, rest) ← Identity.take? octets
  let (source, rest) ← Identity.take? rest
  let (ethertype, rest) ← Octets.takeWord16? rest
  return (⟨destination, source, ethertype⟩, rest)

def decode (octets : Octets) : Except Fault LinkHeader :=
  match take? octets with
  | some (header, _) => .ok header
  | none => .error (.tooShort linkHeaderLength octets.length)

@[simp]
theorem length_encode (h : LinkHeader) : h.encode.length = linkHeaderLength :=
  rfl

@[simp]
theorem take?_encode_append (h : LinkHeader) (rest : Octets) :
    take? (h.encode ++ rest) = some (h, rest) := by
  simp [take?, encode, List.append_assoc]

theorem decode_encode_append (h : LinkHeader) (rest : Octets) :
    decode (h.encode ++ rest) = .ok h := by
  simp [decode]

def describe (h : LinkHeader) : String :=
  Record.whole "LinkHeader" [
    ("destination", h.destination.describe),
    ("source", h.source.describe),
    ("ethertype", toString h.ethertype.toNat)]

end LinkHeader

-- The kind is kept as a number, so that frames of unknown kinds can be read and then left alone.
structure ProtocolHeader where
  signature : UInt32
  nonce : UInt32
  payloadLength : UInt16
  kind : UInt16
deriving DecidableEq, Repr, Inhabited

namespace ProtocolHeader

def signed (nonce : UInt32) (payloadLength kind : UInt16) : ProtocolHeader :=
  ⟨RemoteScreen.signature, nonce, payloadLength, kind⟩

def encode (h : ProtocolHeader) : Octets :=
  Octets.ofWord32 h.signature ++ (Octets.ofWord32 h.nonce ++
    (Octets.ofWord16 h.payloadLength ++ Octets.ofWord16 h.kind))

def take? (octets : Octets) : Option (ProtocolHeader × Octets) := do
  let (signature, rest) ← Octets.takeWord32? octets
  let (nonce, rest) ← Octets.takeWord32? rest
  let (payloadLength, rest) ← Octets.takeWord16? rest
  let (kind, rest) ← Octets.takeWord16? rest
  return (⟨signature, nonce, payloadLength, kind⟩, rest)

-- Reads a header without judging what it says.
def decode (octets : Octets) : Except Fault ProtocolHeader :=
  match take? octets with
  | some (header, _) => .ok header
  | none => .error (.tooShort protocolHeaderLength octets.length)

def validate (h : ProtocolHeader) : Except Fault Unit :=
  if h.signature = RemoteScreen.signature then .ok ()
  else .error (.foreignSignature h.signature)

@[simp]
theorem length_encode (h : ProtocolHeader) : h.encode.length = protocolHeaderLength :=
  rfl

@[simp]
theorem take?_encode_append (h : ProtocolHeader) (rest : Octets) :
    take? (h.encode ++ rest) = some (h, rest) := by
  simp [take?, encode, List.append_assoc]

theorem decode_encode_append (h : ProtocolHeader) (rest : Octets) :
    decode (h.encode ++ rest) = .ok h := by
  simp [decode]

end ProtocolHeader

end RemoteScreen

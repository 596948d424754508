import RemoteScreen.Frame.Received

/-!
Frames built in place inside a buffer that the caller owns.

A draft is a buffer with room for both headers. Headers are stamped first with an empty payload of
no kind; length and kind follow once the payload stands behind them. A reply is a draft that goes
back to the sender of a received frame under the same nonce.
-/

namespace RemoteScreen

-- A buffer that holds at least both headers.
structure Draft where
  octets : Octets
  headerLength_le : headerLength ≤ octets.length

namespace Draft

def ofBuffer (buffer : Octets) : Except Fault Draft :=
  if h : headerLength ≤ buffer.length then .ok ⟨buffer, h⟩
  else .error (.tooShort headerLength buffer.length)

def room (d : Draft) : Nat :=
  d.octets.length - headerLength

theorem headerLength_le_overwrite (d : Draft) (start : Nat) (octets : Octets) :
    headerLength ≤ ((Octets.overwrite d.octets start octets).take d.octets.length).length := by
  have := d.headerLength_le
  simp [Octets.overwrite]
  omega

-- Writes over the octets from `start` on; what would pass the end of the buffer is cut off.
def write (d : Draft) (start : Nat) (octets : Octets) : Draft where
  octets := (Octets.overwrite d.octets start octets).take d.octets.length
  headerLength_le := d.headerLength_le_overwrite start octets

-- Stamps both headers, for an empty payload of no kind.
def writeHeaders (d : Draft) (link : LinkHeader) (nonce : UInt32) : Draft :=
  d.write 0 (link.encode ++ (ProtocolHeader.signed nonce 0 MessageKind.noop.number).encode)

-- Sends a finished frame to another station and session.
def retarget (d : Draft) (destination : Identity) (nonce : UInt32) : Draft :=
  (d.write 0 destination.octets).write (linkHeaderLength + 4) (Octets.ofWord32 nonce)

-- Writes payload from position `start` of the room on.
def writePayload (d : Draft) (start : Nat) (octets : Octets) : Draft :=
  d.write (headerLength + start) octets

-- Like `writePayload`; there is no answer for payload that passes the end of the room.
def writePayload? (d : Draft) (start : Nat) (octets : Octets) : Option Draft :=
  if start + octets.length ≤ d.room then some (d.writePayload start octets) else none

-- Zeros all the room, so that nothing stale goes out with a payload.
def clearPayload (d : Draft) : Draft :=
  d.writePayload 0 (Octets.zeros d.room)

-- Stamps kind and payload length, and gives the length of the whole frame.
def finish (d : Draft) (kind : MessageKind) (payloadLength : Nat) : Except Fault (Nat × Draft) :=
  if d.room < payloadLength then .error (.payloadTooLarge payloadLength d.room)
  else
    .ok (headerLength + payloadLength,
      d.write (linkHeaderLength + 8)
        (Octets.ofWord16 (UInt16.ofNat payloadLength) ++ Octets.ofWord16 kind.number))

-- Starts a reply to `template`, with all the room zeroed.
def reply (buffer : Octets) (template : Received) (own : Identity) (ethertype : UInt16) :
    Except Fault Draft :=
  match ofBuffer buffer with
  | .error fault => .error fault
  | .ok draft =>
    .ok ((draft.writeHeaders ⟨template.source, own, ethertype⟩ template.nonce).clearPayload)

end Draft

-- Builds a whole reply in `buffer`: the frame's length or the fault, and what the buffer holds
-- then. A payload that does not fit is found out after the headers are stamped.
def buildReply (buffer : Octets) (template : Received) (own : Identity) (ethertype : UInt16)
    (kind : MessageKind) (payload : Octets) : Except Fault Nat × Octets :=
  match Draft.reply buffer template own ethertype with
  | .error fault => (.error fault, buffer)
  | .ok draft =>
    if draft.room < payload.length then
      (.error (.payloadTooLarge payload.length draft.room), draft.octets)
    else
      match (draft.writePayload 0 payload).finish kind payload.length with
      | .error fault => (.error fault, draft.octets)
      | .ok (length, finished) => (.ok length, finished.octets)

end RemoteScreen

import RemoteScreen.Frame.Basic

/-!
Frames in datagrams, one in each.

Reading always uses up all that is there. What is no frame of the codec's tag is dropped without a
word, since the protocol has no way to report it.
-/

namespace RemoteScreen

-- Writes and reads the frames that carry one link type tag.
structure Codec where
  ethertype : UInt16 := defaultEthertype
deriving DecidableEq, Repr, Inhabited

namespace Codec

def read? (c : Codec) (datagram : Octets) : Option Frame :=
  if maxJumboLength < datagram.length then none
  else
    match Frame.ofOctets datagram with
    | .ok frame => if frame.link.ethertype = c.ethertype then some frame else none
    | .error _ => none

-- The frame in a buffer, and what stays behind in it.
def decode (c : Codec) (buffer : Octets) : Option Frame × Octets :=
  (c.read? buffer, [])

-- Appends a frame to a buffer. The frame may carry any tag.
def encode (_ : Codec) (frame : Frame) (buffer : Octets) : Except Fault Octets :=
  if maxFrameLength < frame.encodedLength then
    .error (.frameTooLarge frame.encodedLength maxFrameLength)
  else .ok (buffer ++ frame.encode)

end Codec

end RemoteScreen

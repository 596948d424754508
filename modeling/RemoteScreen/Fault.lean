import RemoteScreen.Text.Hexadecimal

/-!
What can go wrong between a viewer and a served screen, and how it is worded.
-/

namespace RemoteScreen

inductive Fault
  -- The frame does not carry the signature that all frames of the protocol share.
  | foreignSignature (signature : UInt32)
  | unknownKind (value : Nat)
  -- Fewer octets than a complete header or record takes.
  | tooShort (needed actual : Nat)
  -- The message needs a session, and its sender holds none.
  | unknownSession (nonce : UInt32)
  | payloadTooLarge (size limit : Nat)
  | frameTooLarge (size limit : Nat)
  | poolExhausted
  | tableFull (slots : Nat)
  | transmission (cause : String)
  | configuration (reason : String)
  | other (text : String)
deriving DecidableEq, Repr

namespace Fault

def message : Fault → String
  | foreignSignature signature => "invalid signature: " ++ Hexadecimal.word32 signature
  | unknownKind value =>
    "unknown MessageType discriminant: 0x" ++ String.ofList (Hexadecimal.digits value)
  | tooShort needed actual => s!"frame too short: need {needed} bytes, got {actual}"
  | unknownSession nonce => "no session for nonce " ++ Hexadecimal.word32 nonce
  | payloadTooLarge size limit => s!"payload too large: {size} bytes (max {limit})"
  | frameTooLarge size limit => s!"frame too large: {size} bytes (max {limit})"
  | poolExhausted => "buffer pool exhausted"
  | tableFull slots => s!"session table full ({slots} slots)"
  | transmission cause => "transmit failed: " ++ cause
  | configuration reason => "invalid configuration: " ++ reason
  | other text => text

-- The fault means that something ran out: the frame is dropped and counted.
def isExhaustion : Fault → Bool
  | poolExhausted | tableFull _ => true
  | _ => false

end Fault

end RemoteScreen

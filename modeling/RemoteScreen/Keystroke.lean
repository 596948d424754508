import RemoteScreen.Fault
import RemoteScreen.Octets

/-!
Keystrokes and the records that carry them: a scan code, a character and the modifier keys held.

A payload holds records of four octets; a last one that is cut short does not count.
-/

namespace RemoteScreen

def keystrokeLength : Nat := 4

structure Modifiers where
  shift : Bool := false
  control : Bool := false
  alt : Bool := false
deriving DecidableEq, Repr, Inhabited

namespace Modifiers

def shiftBit : UInt16 := 1

def controlBit : UInt16 := 4

def altBit : UInt16 := 8

def word (m : Modifiers) : UInt16 :=
  (if m.shift then shiftBit else 0) + (if m.control then controlBit else 0)
    + (if m.alt then altBit else 0)

-- The modifiers in a word; its other bits mean nothing.
def ofWord (word : UInt16) : Modifiers where
  shift := word &&& shiftBit != 0
  control := word &&& controlBit != 0
  alt := word &&& altBit != 0

@[simp]
theorem ofWord_word (m : Modifiers) : ofWord m.word = m := by
  rcases m with ⟨_ | _, _ | _, _ | _⟩ <;> decide

end Modifiers

structure Keystroke where
  scanCode : UInt8 := 0
  character : UInt8 := 0
  -- The word of the modifiers as sent, unknown bits included.
  flags : UInt16 := 0
deriving DecidableEq, Repr, Inhabited

namespace Keystroke

def make (scanCode character : UInt8) (modifiers : Modifiers) : Keystroke :=
  ⟨scanCode, character, modifiers.word⟩

def plain (character : UInt8) : Keystroke :=
  make 0 character {}

def modifiers (k : Keystroke) : Modifiers :=
  .ofWord k.flags

def encode (k : Keystroke) : Octets :=
  k.scanCode :: k.character :: Octets.ofWord16 k.flags

def take? : Octets → Option (Keystroke × Octets)
  | scanCode :: character :: high :: low :: rest =>
    some (⟨scanCode, character, Octets.word16 high low⟩, rest)
  | _ => none

def decode (octets : Octets) : Except Fault Keystroke :=
  match take? octets with
  | some (key, _) => .ok key
  | none => .error (.tooShort keystrokeLength octets.length)

def records : Octets → List Keystroke
  | scanCode :: character :: high :: low :: rest =>
    ⟨scanCode, character, Octets.word16 high low⟩ :: records rest
  | _ => []

def encodeAll (keys : List Keystroke) : Octets :=
  keys.flatMap encode

-- Writes the records of `keys` over the front of a buffer: their length or the fault, and what the
-- buffer holds then.
def encodeInto (keys : List Keystroke) (buffer : Octets) : Except Fault Nat × Octets :=
  let octets := encodeAll keys
  match buffer.stamp? octets with
  | some written => (.ok octets.length, written)
  | none => (.error (.payloadTooLarge octets.length buffer.length), buffer)

@[simp]
theorem take?_encode_append (k : Keystroke) (rest : Octets) :
    take? (k.encode ++ rest) = some (k, rest) := by
  simp only [encode, Octets.ofWord16, List.cons_append, List.nil_append, take?,
    Octets.word16_ofWord16]

theorem records_encode_append (k : Keystroke) (rest : Octets) :
    records (k.encode ++ rest) = k :: records rest := by
  simp only [encode, Octets.ofWord16, List.cons_append, List.nil_append, records,
    Octets.word16_ofWord16]

theorem records_encodeAll (keys : List Keystroke) : records (encodeAll keys) = keys := by
  induction keys with
  | nil => rfl
  | cons k rest ih =>
    rw [encodeAll, List.flatMap_cons, records_encode_append]
    exact congrArg (k :: ·) ih

-- The keystrokes of a line typed at a console: its characters that draw something or are plain
-- spaces, and then Enter if the line ends.
def ofLine (line : String) (newline : Bool) : List Keystroke :=
  ((line.toUTF8.toList.filter fun o => 0x20 ≤ o && o ≤ 0x7e).map plain)
    ++ if newline then [plain 13] else []

end Keystroke

end RemoteScreen

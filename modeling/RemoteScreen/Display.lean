import RemoteScreen.Fault
import RemoteScreen.Octets

/-!
What can be seen of a text display from outside: its state, its cells as octets and a checksum over
a stretch of them.

A cell takes two octets, the character and then its attribute. The state doubles as the payload that
answers a status request.
-/

namespace RemoteScreen

def cellWidth : Nat := 2

-- Light grey on black.
def defaultAttribute : UInt8 := 7

-- The video mode of a colour text screen.
def textMode : UInt8 := 3

def displayStateLength : Nat := 6

structure DisplayState where
  mode : UInt8 := textMode
  page : UInt8 := 0
  rows : UInt8
  cols : UInt8
  cursorRow : UInt8 := 0
  cursorCol : UInt8 := 0
deriving DecidableEq, Repr, Inhabited

namespace DisplayState

def rowLength (s : DisplayState) : Nat :=
  s.cols.toNat * cellWidth

def regionLength (s : DisplayState) : Nat :=
  s.rows.toNat * s.rowLength

def encode (s : DisplayState) : Octets :=
  [s.mode, s.page, s.rows, s.cols, s.cursorRow, s.cursorCol]

def decode : Octets → Except Fault DisplayState
  | mode :: page :: rows :: cols :: cursorRow :: cursorCol :: _ =>
    .ok ⟨mode, page, rows, cols, cursorRow, cursorCol⟩
  | octets => .error (.tooShort displayStateLength octets.length)

@[simp]
theorem decode_encode_append (s : DisplayState) (rest : Octets) :
    decode (s.encode ++ rest) = .ok s :=
  rfl

end DisplayState

structure Display where
  state : DisplayState
  -- The cell octets from a position on, as many as are asked for.
  read : (start count : Nat) → Octets
  checksum : (start count : Nat) → UInt32

-- Every read gives as many octets as it is asked for.
def Display.Fills (d : Display) : Prop :=
  ∀ start count, (d.read start count).length = count

end RemoteScreen

import RemoteScreen.Digest
import RemoteScreen.Display

/-!
A text screen held in memory, with a writer that works like a teletype.

Chunks place cells with sixteen bits, so only screens with cells, and no more of them than sixteen
bits can place, are made.
-/

namespace RemoteScreen

structure Screen where
  mode : UInt8 := textMode
  page : UInt8 := 0
  rows : UInt8
  cols : UInt8
  cursorRow : UInt8 := 0
  cursorCol : UInt8 := 0
  colour : UInt8 := defaultAttribute
  cells : Octets
deriving DecidableEq, Repr

namespace Screen

def maxRegionLength : Nat := 65535

def regionLength (rows cols : UInt8) : Nat :=
  rows.toNat * cols.toNat * cellWidth

def isUsable (rows cols : UInt8) : Bool :=
  0 < regionLength rows cols && regionLength rows cols ≤ maxRegionLength

def checkShape (rows cols : UInt8) : Except Fault Unit :=
  if isUsable rows cols then .ok ()
  else
    .error (.configuration s!"display geometry {rows.toNat}x{cols.toNat} is not usable")

def blanks (colour : UInt8) : (count : Nat) → Octets
  | 0 => []
  | count + 1 => 0x20 :: colour :: blanks colour count

-- Blanks every cell and takes the cursor home.
def clear (s : Screen) : Screen :=
  { s with
    cursorRow := 0
    cursorCol := 0
    cells := blanks s.colour (s.rows.toNat * s.cols.toNat) }

def make (rows cols : UInt8) : Except Fault Screen :=
  match checkShape rows cols with
  | .error fault => .error fault
  | .ok () => .ok ({ rows, cols, cells := [] : Screen }).clear

def rowLength (s : Screen) : Nat :=
  s.cols.toNat * cellWidth

-- Changes the shape, which blanks the screen.
def resize (s : Screen) (rows cols : UInt8) : Except Fault Screen :=
  match checkShape rows cols with
  | .error fault => .error fault
  | .ok () => .ok { s with rows, cols }.clear

def setMode (s : Screen) (mode : UInt8) : Screen :=
  { s with mode }

-- Moves the cursor, no further than the last row and column.
def setCursor (s : Screen) (row col : UInt8) : Screen :=
  { s with cursorRow := min row (s.rows - 1), cursorCol := min col (s.cols - 1) }

-- Writes over cell octets; there is no answer if they pass the end of the screen.
def paint? (s : Screen) (start : Nat) (octets : Octets) : Option Screen :=
  if start + octets.length ≤ s.cells.length then
    some { s with cells := s.cells.overwrite start octets }
  else none

-- Puts a character into a cell, in the colour of the writer.
def store (s : Screen) (row col : UInt8) (character : UInt8) : Screen :=
  { s with
    cells := s.cells.overwrite ((row.toNat * s.cols.toNat + col.toNat) * cellWidth)
      [character, s.colour] }

-- Moves all rows up by one, which drops the first and leaves the last blank.
def scroll (s : Screen) : Screen :=
  { s with cells := s.cells.drop s.rowLength ++ blanks s.colour s.cols.toNat }

-- Moves the cursor down a row; at the last one the screen scrolls instead.
def lineFeed (s : Screen) : Screen :=
  if s.cursorRow.toNat + 1 < s.rows.toNat then { s with cursorRow := s.cursorRow + 1 }
  else s.scroll

def startLine (s : Screen) : Screen :=
  { s with cursorCol := 0 }

-- Blanks the cell before the cursor, but never goes back past the first column.
def backspace (s : Screen) : Screen :=
  if 0 < s.cursorCol then
    { s with cursorCol := s.cursorCol - 1 }.store s.cursorRow (s.cursorCol - 1) 0x20
  else s

-- Writes a character at the cursor and moves on, past the last column to the next line.
def type (s : Screen) (character : UInt8) : Screen :=
  let s := s.store s.cursorRow s.cursorCol character
  if s.cols.toNat ≤ s.cursorCol.toNat + 1 then s.startLine.lineFeed
  else { s with cursorCol := s.cursorCol + 1 }

def carriageReturn : UInt8 := 13

def newline : UInt8 := 10

def erase : UInt8 := 8

-- Writes one octet: a control moves the cursor, anything else is a character.
def put (s : Screen) (o : UInt8) : Screen :=
  if o = carriageReturn then s.startLine
  else if o = newline then s.startLine.lineFeed
  else if o = erase then s.backspace
  else s.type o

def putAll (s : Screen) (octets : Octets) : Screen :=
  octets.foldl put s

def write (s : Screen) (text : String) : Screen :=
  s.putAll text.toUTF8.toList

-- The characters of a row; a row outside the screen has none.
def row (s : Screen) (row : UInt8) : Octets :=
  if row < s.rows then
    characters ((s.cells.drop (row.toNat * s.rowLength)).take s.rowLength)
  else []
where
  characters : Octets → Octets
    | character :: _ :: rest => character :: characters rest
    | _ => []

-- The characters of a row as text, octet by octet.
def rowText (s : Screen) (row : UInt8) : String :=
  String.ofList ((s.row row).map fun o => Char.ofNat o.toNat)

-- The cell octets in a stretch, as far as the screen has them.
def region (s : Screen) (start count : Nat) : Octets :=
  (s.cells.drop start).take count

-- The cell octets in a stretch; past the screen all octets are zero.
def read (s : Screen) (start count : Nat) : Octets :=
  Octets.fitted count (s.region start count)

-- The checksum over a stretch, as far as the screen has it.
def checksum (s : Screen) (start count : Nat) : UInt32 :=
  RemoteScreen.checksum (s.region start count)

-- Like `read`; there is no answer for a stretch whose end has no position.
def read? (s : Screen) (start count : Nat) : Option Octets :=
  if start + count < Octets.positionLimit then some (s.read start count) else none

-- Like `checksum`; there is no answer for a stretch whose end has no position.
def checksum? (s : Screen) (start count : Nat) : Option UInt32 :=
  if start + count < Octets.positionLimit then some (s.checksum start count) else none

def state (s : Screen) : DisplayState where
  mode := s.mode
  page := s.page
  rows := s.rows
  cols := s.cols
  cursorRow := s.cursorRow
  cursorCol := s.cursorCol

-- The screen as those see it who only look.
def display (s : Screen) : Display where
  state := s.state
  read := s.read
  checksum := s.checksum

theorem fills_display (s : Screen) : s.display.Fills :=
  fun _ _ => Octets.length_fitted _ _

end Screen

end RemoteScreen

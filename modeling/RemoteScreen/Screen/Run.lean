import RemoteScreen.Screen.Console

/-!
What a screen goes through: octets and texts that are written on it, keys that are echoed, cells
that its owner paints over, and changes of its shape, its cursor and its mode, in any order.

A resize to a shape that cannot be used is refused, and so is paint that passes the end of the
screen. The screen is then as it was.
-/

namespace RemoteScreen.Screen

inductive Event
  | put (o : UInt8)
  | write (text : String)
  | clear
  | resize (rows cols : UInt8)
  | setCursor (row col : UInt8)
  | setMode (mode : UInt8)
  -- Any octets over the cell octets from a position on.
  | paint (start : Nat) (octets : Octets)
  | echo (key : Keystroke)

-- How a resize ends, and the screen then.
def tryResize (s : Screen) (rows cols : UInt8) : Except Fault Unit × Screen :=
  match s.resize rows cols with
  | .error fault => (.error fault, s)
  | .ok s => (.ok (), s)

def step (s : Screen) : Event → Screen
  | .put o => s.put o
  | .write text => s.write text
  | .clear => s.clear
  | .resize rows cols => (s.tryResize rows cols).2
  | .setCursor row col => s.setCursor row col
  | .setMode mode => s.setMode mode
  | .paint start octets => (s.paint? start octets).getD s
  | .echo key => s.echo key

def run (s : Screen) (events : List Event) : Screen :=
  events.foldl step s

end RemoteScreen.Screen

import RemoteScreen.Keystroke
import RemoteScreen.Screen.Basic

/-!
A screen with a keyboard: keys are echoed where they are typed.

Enter in either form starts a new line and Backspace erases. Other keys without a character that
draws something, or a plain space, do nothing.
-/

namespace RemoteScreen.Screen

def echo (s : Screen) (key : Keystroke) : Screen :=
  let o := key.character
  if o = carriageReturn ∨ o = newline then s.put newline
  else if o = erase then s.put erase
  else if 0x20 ≤ o ∧ o ≤ 0x7e then s.put o
  else s

def echoAll (s : Screen) (keys : List Keystroke) : Screen :=
  keys.foldl echo s

end RemoteScreen.Screen

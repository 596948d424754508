import RemoteScreen.Text.Hexadecimal
import RemoteScreen.Text.Printable

/-!
Texts shown between double quotes, with escapes for what would not be seen.
-/

namespace RemoteScreen.Quoted

def escape (c : Char) : List Char :=
  match c with
  | '\x00' => ['\\', '0']
  | '\t' => ['\\', 't']
  | '\n' => ['\\', 'n']
  | '\r' => ['\\', 'r']
  | '"' => ['\\', '"']
  | '\\' => ['\\', '\\']
  | _ =>
    if Printable.isShown c then [c]
    else ['\\', 'u', '\x7b'] ++ Hexadecimal.digits c.toNat ++ ['\x7d']

def text (s : String) : String :=
  String.ofList ('"' :: s.toList.flatMap escape ++ ['"'])

end RemoteScreen.Quoted

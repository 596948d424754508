import RemoteScreen.Address.Basic
import RemoteScreen.Fault
import RemoteScreen.Text.Numeral
import RemoteScreen.Text.Quoted

/-!
Reading the address of a datagram socket from a text.

Each reader takes what it reads off the front of the text and hands back the rest. An address is
read whole: nothing may stand before or behind it.
-/

namespace RemoteScreen.Address

-- Takes something off the front of a text.
abbrev Reader (α : Type) := List Char → Option (α × List Char)

def char? (c : Char) : Reader Unit
  | [] => none
  | d :: rest => if d = c then some ((), rest) else none

-- All digits at the front, as a number below `bound`.
def number? (radix bound : Nat) : Reader Nat := fun text =>
  let digits := text.map (Numeral.digit? radix) |>.takeWhile Option.isSome |>.filterMap id
  let value := digits.foldl (· * radix + ·) 0
  if digits = [] ∨ bound ≤ value then none else some (value, text.drop digits.length)

def shortNumber? (radix bound width : Nat) : Reader Nat := fun text => do
  let (value, rest) ← number? radix bound text
  if width < text.length - rest.length then none else some (value, rest)

-- A decimal octet without needless zeros.
def octet? : Reader UInt8 := fun text => do
  let (value, rest) ← shortNumber? 10 256 3 text
  if text.head? = some '0' ∧ 1 < text.length - rest.length then none
  else some (UInt8.ofNat value, rest)

-- Four octets with points between them.
def quad? : Reader (UInt8 × UInt8 × UInt8 × UInt8) := fun text => do
  let (a, text) ← octet? text
  let ((), text) ← char? '.' text
  let (b, text) ← octet? text
  let ((), text) ← char? '.' text
  let (c, text) ← octet? text
  let ((), text) ← char? '.' text
  let (d, text) ← octet? text
  return ((a, b, c, d), text)

def service? : Reader UInt16 := fun text => do
  let ((), text) ← char? ':' text
  let (value, text) ← number? 10 65536 text
  return (UInt16.ofNat value, text)

-- A reader behind a colon, which the first place of all does without.
def behindColon? {α : Type} (first : Bool) (reader : Reader α) : Reader α := fun text =>
  if first then reader text
  else
    match char? ':' text with
    | none => none
    | some ((), text) => reader text

-- Groups with colons between them, no more than `room`. Two of them can be written as four octets
-- at the end, which is said beside them.
def groups : (room : Nat) → (first : Bool) → List Char → List UInt16 × Bool × List Char
  | 0, _, text => ([], false, text)
  | room + 1, first, text =>
    match if room = 0 then none else behindColon? first quad? text with
    | some ((a, b, c, d), rest) => ([Octets.word16 a b, Octets.word16 c d], true, rest)
    | none =>
      match behindColon? first (shortNumber? 16 65536 4) text with
      | none => ([], false, text)
      | some (value, rest) =>
        let (others, dotted, rest) := groups room false rest
        (UInt16.ofNat value :: others, dotted, rest)

-- The eight groups of a host of the longer kind. A double colon stands for one zero group at least.
def host? : Reader (Vector UInt16 8) := fun text => do
  let (front, dotted, text) := groups 8 true text
  if h : front.length = 8 then return (⟨front.toArray, by simp [h]⟩, text)
  else if dotted then none
  else
    let ((), text) ← char? ':' text
    let ((), text) ← char? ':' text
    let (back, _, text) := groups (7 - front.length) true text
    let all := front ++ List.replicate (8 - front.length - back.length) 0 ++ back
    if h : all.length = 8 then return (⟨all.toArray, by simp [h]⟩, text) else none

def scope : List Char → UInt32 × List Char := fun text =>
  match char? '%' text with
  | none => (0, text)
  | some ((), rest) =>
    match number? 10 4294967296 rest with
    | none => (0, text)
    | some (value, rest) => (UInt32.ofNat value, rest)

def v4? : Reader Address := fun text => do
  let ((a, b, c, d), text) ← quad? text
  let (service, text) ← service? text
  return (v4 a b c d service, text)

def v6? : Reader Address := fun text => do
  let ((), text) ← char? '[' text
  let (host, text) ← host? text
  let (scope, text) := scope text
  let ((), text) ← char? ']' text
  let (service, text) ← service? text
  return (v6 host scope service, text)

def ofText? (s : String) : Option Address :=
  match (v4? s.toList).or (v6? s.toList) with
  | some (address, []) => some address
  | _ => none

def ofSetting (field s : String) : Except Fault Address :=
  match ofText? s with
  | some address => .ok address
  | none =>
    .error (.configuration
      (field ++ " address " ++ Quoted.text s ++ ": invalid socket address syntax"))

end RemoteScreen.Address

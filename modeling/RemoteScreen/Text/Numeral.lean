/-!
Unsigned numerals that are read whole, in a given base and below a given bound.

One plus sign may stand in front. A numeral is judged digit by digit from the left: a character
that is no digit is reported before the value that it would make too large.
-/

namespace RemoteScreen.Numeral

inductive Defect
  | empty
  | badDigit
  | tooLarge
deriving DecidableEq, Repr

def Defect.message : Defect → String
  | empty => "cannot parse integer from empty string"
  | badDigit => "invalid digit found in string"
  | tooLarge => "number too large to fit in target type"

-- The value of a digit in bases up to thirty-six; letters count in either case.
def digit? (radix : Nat) (c : Char) : Option Nat :=
  let value :=
    if '0' ≤ c ∧ c ≤ '9' then c.toNat - '0'.toNat
    else if 'a' ≤ c ∧ c ≤ 'z' then c.toNat - 'a'.toNat + 10
    else if 'A' ≤ c ∧ c ≤ 'Z' then c.toNat - 'A'.toNat + 10
    else radix
  if value < radix then some value else none

-- Reads digits behind those that make `value`.
def extend (radix bound : Nat) : Nat → List Char → Except Defect Nat
  | value, [] => .ok value
  | value, c :: rest =>
    match digit? radix c with
    | none => .error .badDigit
    | some d =>
      if value * radix + d < bound then extend radix bound (value * radix + d) rest
      else .error .tooLarge

def read (radix bound : Nat) : List Char → Except Defect Nat
  | [] => .error .empty
  | ['+'] => .error .badDigit
  | '+' :: rest => extend radix bound 0 rest
  | text => extend radix bound 0 text

end RemoteScreen.Numeral

import RemoteScreen.Toml.Text
import RemoteScreen.Toml.Value

/-!
Numbers, dates and times of a TOML document.

Integers have sixty-four bits with a sign. Floats are only checked: they must be written correctly
and must not be too large for the double format. Dates and times are checked against the calendar
and the clock.
-/

namespace RemoteScreen.Toml

-- Digits behind the first; an underscore may stand before each.
def digitsBehind (isDigit : Char → Bool) : List Char → List Char × List Char
  | '_' :: d :: rest =>
    if isDigit d then
      let (digits, left) := digitsBehind isDigit rest
      (d :: digits, left)
    else ([], '_' :: d :: rest)
  | d :: rest =>
    if isDigit d then
      let (digits, left) := digitsBehind isDigit rest
      (d :: digits, left)
    else ([], d :: rest)
  | [] => ([], [])

-- Digits at the front, without the underscores between them.
def digitRun (isDigit : Char → Bool) : List Char → List Char × List Char
  | c :: rest =>
    if isDigit c then
      let (digits, left) := digitsBehind isDigit rest
      (c :: digits, left)
    else ([], c :: rest)
  | [] => ([], [])

def valueIn (radix : Nat) (digits : List Char) : Nat :=
  digits.foldl (fun value c => value * radix + (hexValue? c).getD 0) 0

def maxInteger : Nat := 9223372036854775807

def isOctal (c : Char) : Bool :=
  '0' ≤ c && c ≤ '7'

def isBinary (c : Char) : Bool :=
  c == '0' || c == '1'

-- An integer in another base than ten, behind its mark.
def basedInteger? (radix : Nat) (isDigit : Char → Bool) : Reader Value := fun text =>
  let (digits, rest) := digitRun isDigit text
  if digits = [] ∨ maxInteger < valueIn radix digits then none
  else some (.integer (valueIn radix digits), rest)

-- A sign, if there is one, and whether it is a minus.
def sign : List Char → Bool × List Char
  | '+' :: rest => (false, rest)
  | '-' :: rest => (true, rest)
  | text => (false, text)

-- Decimal digits; a zero stands alone at the front.
def decimalDigits? : Reader (List Char)
  | '0' :: rest => some (['0'], rest)
  | text =>
    let (digits, rest) := digitRun Char.isDigit text
    if digits = [] then none else some (digits, rest)

def decimal? : Reader Value := fun text => do
  let (negative, text) := sign text
  let (digits, rest) ← decimalDigits? text
  let value := valueIn 10 digits
  if negative then
    if maxInteger + 1 < value then none else return (.integer (-(value : Int)), rest)
  else if maxInteger < value then none
  else return (.integer value, rest)

-- The decimal `digits · 10 ^ exponent` rounds to a number beyond the largest double.
def overflows (digits : Nat) (exponent : Int) : Bool :=
  if digits = 0 then false
  else
    let magnitude : Int := (Nat.toDigits 10 digits).length + exponent
    if magnitude < 300 then false
    else if 320 < magnitude then true
    else
      let bound := (1 <<< 1024) - (1 <<< 970)
      if exponent < 0 then bound * Nat.pow 10 exponent.natAbs ≤ digits
      else bound ≤ digits * Nat.pow 10 exponent.toNat

def fraction? : Reader (List Char)
  | '.' :: rest =>
    let (digits, rest) := digitRun Char.isDigit rest
    if digits = [] then none else some (digits, rest)
  | _ => none

def exponent? : Reader Int
  | c :: rest =>
    if c = 'e' ∨ c = 'E' then
      let (negative, rest) := sign rest
      let (digits, rest) := digitRun Char.isDigit rest
      if digits = [] then none
      else
        let value : Int := valueIn 10 digits
        some (if negative then -value else value, rest)
    else none
  | [] => none

def float? : Reader Value := fun text => do
  let (negative, text) := sign text
  let (whole, text) ← decimalDigits? text
  let (part, exponent, rest) ←
    match fraction? text with
    | some (part, rest) =>
      match exponent? rest with
      | some (exponent, rest) => some (part, exponent, rest)
      | none => some (part, 0, rest)
    | none =>
      match exponent? text with
      | some (exponent, rest) => some ([], exponent, rest)
      | none => none
  if overflows (valueIn 10 (whole ++ part)) (exponent - part.length) ∧ !negative then none
  else return (.float, rest)

-- An infinity or an undefined value, by name.
def namedFloat? : Reader Value := fun text =>
  match (sign text).2 with
  | 'i' :: 'n' :: 'f' :: rest => some (.float, rest)
  | 'n' :: 'a' :: 'n' :: rest => some (.float, rest)
  | _ => none

-- A number of exactly `count` digits between two bounds.
def fixed? (count low high : Nat) : Reader Nat := fun text =>
  let digits := text.take count
  let value := valueIn 10 digits
  if digits.length = count ∧ digits.all Char.isDigit ∧ low ≤ value ∧ value ≤ high then
    some (value, text.drop count)
  else none

def mark? (c : Char) : List Char → Option (List Char)
  | [] => none
  | d :: rest => if d = c then some rest else none

def daysIn (year month : Nat) : Nat :=
  match month with
  | 2 => if year % 4 = 0 ∧ (year % 100 ≠ 0 ∨ year % 400 = 0) then 29 else 28
  | 4 | 6 | 9 | 11 => 30
  | _ => 31

-- What is left behind a date.
def date? (text : List Char) : Option (List Char) := do
  let (year, text) ← fixed? 4 0 9999 text
  let text ← mark? '-' text
  let (month, text) ← fixed? 2 1 12 text
  let text ← mark? '-' text
  let (_, text) ← fixed? 2 1 (daysIn year month) text
  return text

-- What is left behind a time of day. A leap second is let in.
def time? (text : List Char) : Option (List Char) := do
  let (_, text) ← fixed? 2 0 23 text
  let text ← mark? ':' text
  let (_, text) ← fixed? 2 0 59 text
  let text ← mark? ':' text
  let (_, text) ← fixed? 2 0 60 text
  match text with
  | '.' :: rest =>
    let digits := rest.takeWhile Char.isDigit
    if digits = [] then none else return rest.dropWhile Char.isDigit
  | _ => return text

-- What is left behind the distance from universal time, if there is one.
def offset? : List Char → Option (List Char)
  | 'Z' :: rest => some rest
  | 'z' :: rest => some rest
  | c :: rest =>
    if c = '+' ∨ c = '-' then do
      let (_, rest) ← fixed? 2 0 23 rest
      let rest ← mark? ':' rest
      let (_, rest) ← fixed? 2 0 59 rest
      return rest
    else some (c :: rest)
  | [] => some []

-- A date, a time of day, or both with or without an offset.
def moment? : Reader Value := fun text =>
  match date? text with
  | none => (time? text).map (.moment, ·)
  | some rest =>
    match rest with
    | c :: behind =>
      if c = 'T' ∨ c = 't' ∨ c = ' ' then
        match (time? behind).bind offset? with
        | some left => some (.moment, left)
        | none => some (.moment, rest)
      else some (.moment, rest)
    | [] => some (.moment, [])

def number? : Reader Value := fun text =>
  match moment? text with
  | some found => some found
  | none =>
    match float? text with
    | some found => some found
    | none =>
      match namedFloat? text with
      | some found => some found
      | none =>
        match text with
        | '0' :: 'x' :: rest => basedInteger? 16 (fun c => (hexValue? c).isSome) rest
        | '0' :: 'o' :: rest => basedInteger? 8 isOctal rest
        | '0' :: 'b' :: rest => basedInteger? 2 isBinary rest
        | _ => decimal? text

end RemoteScreen.Toml

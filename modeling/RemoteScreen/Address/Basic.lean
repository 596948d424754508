import RemoteScreen.Text.Hexadecimal
import RemoteScreen.Octets

/-!
Internet addresses of datagram sockets, as written out.

The text has one form per address: no octet with needless zeros, and in the longer kind of address
the first of the longest stretches of two or more zero groups is left out.
-/

namespace RemoteScreen

-- The address of a datagram socket: a host, and the number of a service on it.
inductive Address
  | v4 (a b c d : UInt8) (service : UInt16)
  | v6 (groups : Vector UInt16 8) (scope : UInt32) (service : UInt16)
deriving DecidableEq, Repr

namespace Address

def dotted (a b c d : UInt8) : String :=
  String.intercalate "." ([a, b, c, d].map fun o => toString o.toNat)

def groupText (group : UInt16) : String :=
  String.ofList (Hexadecimal.digits group.toNat)

def colonned (groups : List UInt16) : String :=
  String.intercalate ":" (groups.map groupText)

def leadingZeros (groups : List UInt16) : Nat :=
  (groups.takeWhile (· = 0)).length

-- Start and length of the first of the longest stretches of zero groups.
def zeroStretch : List UInt16 → Nat × Nat
  | [] => (0, 0)
  | group :: rest =>
    let here := leadingZeros (group :: rest)
    let (start, length) := zeroStretch rest
    if here ≠ 0 ∧ length ≤ here then (0, here) else (start + 1, length)

-- The host of the longer kind. An address that embeds one of the shorter kind shows it.
def hostText (groups : List UInt16) : String :=
  match groups with
  | [0, 0, 0, 0, 0, 0xffff, high, low] =>
    let octets := Octets.ofWord16 high ++ Octets.ofWord16 low
    "::ffff:" ++ String.intercalate "." (octets.map fun o => toString o.toNat)
  | _ =>
    let (start, length) := zeroStretch groups
    if 1 < length then
      colonned (groups.take start) ++ "::" ++ colonned (groups.drop (start + length))
    else colonned groups

def text : Address → String
  | v4 a b c d service => dotted a b c d ++ ":" ++ toString service.toNat
  | v6 groups scope service =>
    let zone := if scope = 0 then "" else "%" ++ toString scope.toNat
    "[" ++ hostText groups.toList ++ zone ++ "]:" ++ toString service.toNat

end Address

end RemoteScreen

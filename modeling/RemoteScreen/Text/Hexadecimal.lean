/-!
Numbers written in base sixteen with small letters.
-/

namespace RemoteScreen.Hexadecimal

-- The digits of `n`, with none in front that could be left out.
def digits (n : Nat) : List Char :=
  Nat.toDigits 16 n

def octet (o : UInt8) : List Char :=
  [Nat.digitChar (o.toNat / 16), Nat.digitChar (o.toNat % 16)]

-- The digits of `n`, led by zeros up to `width` of them.
def padded (width n : Nat) : List Char :=
  List.replicate (width - (digits n).length) '0' ++ digits n

-- A word of 32 bits, always in eight digits after the mark.
def word32 (word : UInt32) : String :=
  "0x" ++ String.ofList (padded 8 word.toNat)

end RemoteScreen.Hexadecimal

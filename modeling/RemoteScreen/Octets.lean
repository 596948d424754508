/-!
Runs of octets, and the words written in them with the most significant octet first.

Reading a word takes it off the front of a run and hands back the rest, so that readers of whole
headers are chains of such steps. The main statements say that reading undoes writing, whatever
follows.
-/

namespace RemoteScreen

-- A run of octets, in the order in which they cross the link.
abbrev Octets := List UInt8

namespace Octets

-- Positions in a run are numbered with 64 bits, so none comes up to this.
def positionLimit : Nat := UInt64.size

def zeros (count : Nat) : Octets :=
  List.replicate count 0

-- The octets of `buffer` with `octets` written over those from position `start` on.
def overwrite (buffer : Octets) (start : Nat) (octets : Octets) : Octets :=
  buffer.take start ++ octets ++ buffer.drop (start + octets.length)

-- Writes `octets` over the front of `buffer`; there is no answer if they do not fit.
def stamp? (buffer octets : Octets) : Option Octets :=
  if octets.length ≤ buffer.length then some (overwrite buffer 0 octets) else none

-- The first `count` octets, filled up with zeros.
def fitted (count : Nat) (octets : Octets) : Octets :=
  octets.take count ++ zeros (count - octets.length)

def ofWord16 (word : UInt16) : Octets :=
  [UInt8.ofNat (word.toNat / 256), UInt8.ofNat word.toNat]

def ofWord32 (word : UInt32) : Octets :=
  [UInt8.ofNat (word.toNat / 16777216), UInt8.ofNat (word.toNat / 65536),
    UInt8.ofNat (word.toNat / 256), UInt8.ofNat word.toNat]

def word16 (high low : UInt8) : UInt16 :=
  UInt16.ofNat (high.toNat * 256 + low.toNat)

def word32 (a b c d : UInt8) : UInt32 :=
  UInt32.ofNat (((a.toNat * 256 + b.toNat) * 256 + c.toNat) * 256 + d.toNat)

def takeWord16? : Octets → Option (UInt16 × Octets)
  | high :: low :: rest => some (word16 high low, rest)
  | _ => none

def takeWord32? : Octets → Option (UInt32 × Octets)
  | a :: b :: c :: d :: rest => some (word32 a b c d, rest)
  | _ => none

@[simp]
theorem length_zeros (count : Nat) : (zeros count).length = count := by
  simp [zeros]

theorem zeros_add (m n : Nat) : zeros (m + n) = zeros m ++ zeros n :=
  List.replicate_append_replicate.symm

@[simp]
theorem length_ofWord16 (word : UInt16) : (ofWord16 word).length = 2 :=
  rfl

@[simp]
theorem length_ofWord32 (word : UInt32) : (ofWord32 word).length = 4 :=
  rfl

@[simp]
theorem length_fitted (count : Nat) (octets : Octets) : (fitted count octets).length = count := by
  simp [fitted]
  omega

theorem length_overwrite {buffer octets : Octets} {start : Nat}
    (h : start + octets.length ≤ buffer.length) :
    (overwrite buffer start octets).length = buffer.length := by
  simp [overwrite]
  omega

theorem overwrite_append {front old back new : Octets} (h : old.length = new.length) :
    overwrite (front ++ (old ++ back)) front.length new = front ++ (new ++ back) := by
  simp [overwrite, ← h]

-- Writing a stretch of a run over itself changes nothing.
theorem overwrite_slice (octets : Octets) (start count : Nat) :
    overwrite octets start ((octets.drop start).take count) = octets := by
  by_cases h : start + count ≤ octets.length
  case pos =>
    have hl : ((octets.drop start).take count).length = count := by
      simp
      omega
    rw [overwrite, hl, List.append_assoc, ← List.drop_drop, List.take_append_drop,
      List.take_append_drop]
  case neg =>
    have ht : (octets.drop start).take count = octets.drop start := by
      apply List.take_of_length_le
      simp
      omega
    have hd : octets.drop (start + (octets.drop start).length) = [] := by
      apply List.drop_eq_nil_of_le
      simp
      omega
    rw [overwrite, ht, hd, List.append_nil, List.take_append_drop]

theorem overwrite_overwrite {buffer octets : Octets} {start : Nat} (h : start ≤ buffer.length) :
    overwrite (overwrite buffer start octets) start octets = overwrite buffer start octets := by
  have hs : (buffer.take start).length = start := by
    simp [h]
  have ho : overwrite buffer start octets
      = buffer.take start ++ (octets ++ buffer.drop (start + octets.length)) := by
    rw [overwrite, List.append_assoc]
  let back := buffer.drop (start + octets.length)
  have : overwrite (buffer.take start ++ (octets ++ back)) (buffer.take start).length octets
      = buffer.take start ++ (octets ++ back) :=
    overwrite_append rfl
  rwa [hs, ← ho] at this

theorem word16_ofWord16 (word : UInt16) :
    word16 (UInt8.ofNat (word.toNat / 256)) (UInt8.ofNat word.toNat) = word := by
  have h := word.toNat_lt
  apply UInt16.toNat_inj.mp
  simp [word16]
  omega

theorem word32_ofWord32 (word : UInt32) :
    word32 (UInt8.ofNat (word.toNat / 16777216)) (UInt8.ofNat (word.toNat / 65536))
      (UInt8.ofNat (word.toNat / 256)) (UInt8.ofNat word.toNat) = word := by
  have h := word.toNat_lt
  apply UInt32.toNat_inj.mp
  simp [word32]
  omega

@[simp]
theorem takeWord16?_ofWord16_append (word : UInt16) (rest : Octets) :
    takeWord16? (ofWord16 word ++ rest) = some (word, rest) := by
  simp only [ofWord16, List.cons_append, List.nil_append, takeWord16?, word16_ofWord16]

@[simp]
theorem takeWord32?_ofWord32_append (word : UInt32) (rest : Octets) :
    takeWord32? (ofWord32 word ++ rest) = some (word, rest) := by
  simp only [ofWord32, List.cons_append, List.nil_append, takeWord32?, word32_ofWord32]

end Octets

end RemoteScreen

import RemoteScreen.Frame.Codec

namespace RemoteScreen

namespace Frame

variable {f g : Frame}

-- What is read back from an encoded frame and the octets behind it. The payload is cut to the
-- length that sixteen bits can declare and to the longest that a reader takes.
theorem ofOctets_encode_append (f : Frame) (rest : Octets) :
    ofOctets (f.encode ++ rest) = .ok ⟨f.link, f.nonce, f.kind, (f.payload ++ rest).take
      (min (UInt16.ofNat f.payload.length).toNat (maxJumboLength - headerLength))⟩ := by
  simp [ofOctets, encode, Received.parseUpTo, ProtocolHeader.validate, ProtocolHeader.signed,
    Received.kind, Received.nonce]

theorem ofOctets_encode_filled (h : f.payload.length ≤ maxJumboLength - headerLength)
    (rest : Octets) : ofOctets (f.encode ++ rest) = .ok f := by
  have hl : f.payload.length < UInt16.size := by
    apply Nat.lt_of_le_of_lt h
    decide
  rw [ofOctets_encode_append, UInt16.toNat_ofNat_of_lt' hl, Nat.min_eq_left h, List.take_left]

theorem ofOctets_encode (h : f.payload.length ≤ maxJumboLength - headerLength) :
    ofOctets f.encode = .ok f := by
  have := ofOctets_encode_filled h []
  rwa [List.append_nil] at this

-- Of a frame that crosses the link, with whatever behind it, all comes back but the payload past
-- the length that is declared and past the longest that a reader takes.
theorem round_trip (f : Frame) (rest : Octets) :
    ofOctets (f.encode ++ rest)
        = .ok { f with payload := f.payload.take (min (f.payload.length % 65536) 8988) } ∧
      (ofOctets (f.encode ++ rest) = .ok f ↔ f.payload.length ≤ 8988) := by
  let count := min (f.payload.length % 65536) 8988
  have hc : count ≤ f.payload.length :=
    Nat.le_trans (Nat.min_le_left ..) (Nat.mod_le ..)
  have read : ofOctets (f.encode ++ rest) = .ok { f with payload := f.payload.take count } := by
    have hw : (UInt16.ofNat f.payload.length).toNat = f.payload.length % 65536 :=
      UInt16.toNat_ofNat'
    rw [ofOctets_encode_append, hw, ← List.take_append_of_le_length hc]
    rfl
  refine ⟨read, ?_⟩
  rw [read, Except.ok.injEq]
  constructor
  case mp =>
    intro h
    have ht : f.payload.take count = f.payload := congrArg payload h
    have hl := congrArg List.length ht
    rw [List.length_take] at hl
    have : count ≤ 8988 := Nat.min_le_right ..
    omega
  case mpr =>
    intro h
    have hl : f.payload.length ≤ count := by
      simp only [count]
      omega
    rw [List.take_of_length_le hl]

end Frame

namespace Codec

variable {c : Codec} {f g : Frame}

theorem read?_encode_filled (rest : Octets) (ht : f.link.ethertype = c.ethertype)
    (hl : headerLength + f.payload.length + rest.length ≤ maxJumboLength) :
    c.read? (f.encode ++ rest) = some f := by
  have hp : f.payload.length ≤ maxJumboLength - headerLength := by
    omega
  have : ¬ maxJumboLength < (f.encode ++ rest).length := by
    rw [List.length_append, f.length_encode]
    exact Nat.not_lt.mpr hl
  rw [read?, if_neg this, Frame.ofOctets_encode_filled hp]
  exact if_pos ht

theorem read?_encode (ht : f.link.ethertype = c.ethertype)
    (hl : headerLength + f.payload.length ≤ maxJumboLength) : c.read? f.encode = some f := by
  have := read?_encode_filled [] ht hl
  rwa [List.append_nil] at this

-- Whatever stands behind an encoded frame, what is read from it has its kind.
theorem kind_of_read? {rest : Octets} (h : c.read? (f.encode ++ rest) = some g) :
    g.kind = f.kind := by
  rw [read?] at h
  split at h
  · contradiction
  · rw [Frame.ofOctets_encode_append] at h
    simp only at h
    split at h
    · injection h with h
      rw [← h]
    · contradiction

end Codec

end RemoteScreen

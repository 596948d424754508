import RemoteScreen.Proofs.Frame.Canonical

namespace RemoteScreen

-- Given a buffer, a decoder says what it found in it, and what it left there.
abbrev Decoder : Type :=
  Octets → Except Fault (Option Frame) × Octets

-- What a framed socket makes of a decoder where the input ends, as every datagram does: it decodes
-- once more, and finds fault with what is left over when there is no frame.
structure AtEnd (finish : Decoder → Decoder) : Prop where
  frame    : ∀ {d : Decoder} {buffer f rest}, d buffer = (.ok (some f), rest) →
    finish d buffer = (.ok (some f), rest)
  fault    : ∀ {d : Decoder} {buffer fault rest}, d buffer = (.error fault, rest) →
    finish d buffer = (.error fault, rest)
  done     : ∀ {d : Decoder} {buffer}, d buffer = (.ok none, []) →
    finish d buffer = (.ok none, [])
  leftover : ∀ {d : Decoder} {buffer rest}, d buffer = (.ok none, rest) → rest ≠ [] →
    ∃ fault, finish d buffer = (.error fault, rest)

namespace Codec

variable {c : Codec} {f : Frame} {raw buffer : Octets}

-- Decoding step by step. All that is in the buffer is taken out of it before it is looked at.
def step (c : Codec) : Decoder
  | []     => (.ok none, [])
  | buffer =>
    let (raw, rest) := buffer.splitAt buffer.length
    if maxJumboLength < raw.length then (.ok none, rest)
    else
      match Frame.ofOctets raw with
      | .ok frame =>
        if frame.link.ethertype = c.ethertype then (.ok (some frame), rest) else (.ok none, rest)
      | .error _ => (.ok none, rest)

-- Encoding step by step. Room for the headers comes first, then each of them is written into it,
-- and the payload is put behind.
def write (_ : Codec) (f : Frame) (buffer : Octets) : Except Fault Unit × Octets :=
  if maxFrameLength < f.encodedLength then
    (.error (.frameTooLarge f.encodedLength maxFrameLength), buffer)
  else
    let header := ProtocolHeader.signed f.nonce (UInt16.ofNat f.payload.length) f.kind.number
    let room := buffer ++ Octets.zeros headerLength
    let linked := room.overwrite buffer.length f.link.encode
    let stamped := linked.overwrite (buffer.length + linkHeaderLength) header.encode
    (.ok (), stamped ++ f.payload)

theorem step_eq (c : Codec) (buffer : Octets) :
    c.step buffer = (.ok (c.decode buffer).1, (c.decode buffer).2) := by
  unfold step
  split
  case h_1 => rfl
  case h_2 =>
    simp only [List.splitAt_eq, List.take_length, List.drop_length, decode, read?]
    split
    case isTrue => rfl
    case isFalse =>
      cases Frame.ofOctets buffer
      case error => rfl
      case ok frame =>
        simp only
        split <;> rfl

theorem write_eq (c : Codec) (f : Frame) (buffer : Octets) :
    c.write f buffer =
      match c.encode f buffer with
      | .error fault => (.error fault, buffer)
      | .ok octets   => (.ok (), octets) := by
  rw [write, encode]
  split
  case isTrue => rfl
  case isFalse =>
    let header := ProtocolHeader.signed f.nonce (UInt16.ofNat f.payload.length) f.kind.number
    have linked : (buffer ++ Octets.zeros headerLength).overwrite buffer.length f.link.encode =
        buffer ++ (f.link.encode ++ Octets.zeros protocolHeaderLength) := by
      rw [headerLength, Octets.zeros_add]
      exact Octets.overwrite_append rfl
    have stamped : (buffer ++ (f.link.encode ++ Octets.zeros protocolHeaderLength)).overwrite
        (buffer.length + linkHeaderLength) header.encode =
          buffer ++ (f.link.encode ++ header.encode) := by
      have hl : buffer.length + linkHeaderLength = (buffer ++ f.link.encode).length := by
        rw [List.length_append, LinkHeader.length_encode]
      rw [hl, ← List.append_assoc, ← List.append_assoc, ← List.append_nil (Octets.zeros _),
        ← List.append_nil header.encode]
      exact Octets.overwrite_append rfl
    have added : buffer ++ (f.link.encode ++ header.encode) ++ f.payload = buffer ++ f.encode := by
      simp only [Frame.encode, List.append_assoc, header]
    simp only [linked]
    rw [← added, ← stamped]

-- What stands in a datagram that a codec takes.
structure Accepts (c : Codec) (raw : Octets) : Prop extends Frame.Valid raw where
  short  : raw.length ≤ 9014
  tagged : (raw.slice 12 2).number = c.ethertype.toNat

theorem read?_eq_some_iff :
    c.read? raw = some f ↔ c.Accepts raw ∧ Frame.ofOctets raw = .ok f := by
  rw [read?]
  by_cases hl : maxJumboLength < raw.length
  case pos =>
    rw [if_pos hl]
    constructor
    case mp =>
      intro
      contradiction
    case mpr => exact fun h => absurd h.left.short (Nat.not_le.mpr hl)
  case neg =>
    rw [if_neg hl]
    obtain ⟨fault, read, _⟩ | ⟨valid, link, header, kind, body, rfl, _, _, read⟩ :=
      Frame.ofOctets_cases raw
    case inl =>
      rw [read]
      constructor
      case mp =>
        intro
        contradiction
      case mpr =>
        rintro ⟨_, h⟩
        contradiction
    case inr =>
      have tagged : ((link.encode ++ (header.encode ++ body)).slice 12 2).number =
          c.ethertype.toNat ↔ link.ethertype = c.ethertype := by
        rw [Octets.slice_ethertype, Octets.number_ofWord16, UInt16.toNat_inj]
      rw [read]
      simp only [Except.ok.injEq]
      split
      case isTrue ht =>
        rw [Option.some_inj, iff_and_self]
        exact fun _ => ⟨valid, Nat.le_of_not_lt hl, tagged.mpr ht⟩
      case isFalse ht =>
        constructor
        case mp =>
          intro
          contradiction
        case mpr => exact fun h => absurd (tagged.mp h.left.tagged) ht

-- What a codec finds in a buffer.
structure Reads (c : Codec) (finish : Decoder → Decoder) (buffer : Octets) : Prop where
  step     : c.step buffer = (.ok (c.decode buffer).1, (c.decode buffer).2)
  consumed : (c.decode buffer).2 = []
  ends     : finish c.step buffer = (.ok (c.decode buffer).1, [])
  again    : finish c.step (c.decode buffer).2 = (.ok none, [])
  accepted : (∃ f, (c.decode buffer).1 = some f) ↔ c.Accepts buffer
  frame    : ∀ f, (c.decode buffer).1 = some f → Frame.ofOctets buffer = .ok f

-- What a codec makes of a frame, behind what is in a buffer.
structure Writes (c : Codec) (f : Frame) (buffer : Octets) : Prop where
  write     : c.write f buffer =
    match c.encode f buffer with
    | .error fault => (.error fault, buffer)
    | .ok octets   => (.ok (), octets)
  refused   : ∀ fault, (c.write f buffer).1 = .error fault ↔
    1488 < f.payload.length ∧ fault = .frameTooLarge (26 + f.payload.length) 1514
  untouched : ∀ fault, (c.write f buffer).1 = .error fault → (c.write f buffer).2 = buffer
  appended  : f.payload.length ≤ 1488 → ∃ added, c.write f buffer = (.ok (), buffer ++ added) ∧
    added.length = 26 + f.payload.length ∧ (Codec.mk f.link.ethertype).decode added = (some f, [])

theorem reads {finish : Decoder → Decoder} (atEnd : AtEnd finish) (c : Codec) (buffer : Octets) :
    c.Reads finish buffer := by
  have step := c.step_eq buffer
  constructor
  case step     => exact step
  case consumed => rfl
  case ends =>
    generalize (c.decode buffer).1 = found at step ⊢
    cases found
    case none   => exact atEnd.done step
    case some f => exact atEnd.frame step
  case again => exact atEnd.done rfl
  case accepted =>
    constructor
    case mp  => exact fun ⟨_, h⟩ => (read?_eq_some_iff.mp h).left
    case mpr =>
      intro accepts
      have ⟨f, hf⟩ := (Frame.decoding_canonical buffer).right.left.mpr accepts.toValid
      exact ⟨f, read?_eq_some_iff.mpr ⟨accepts, hf⟩⟩
  case frame => exact fun f h => (read?_eq_some_iff.mp h).right

theorem write_of_le (c : Codec) (buffer : Octets) (h : f.payload.length ≤ 1488) :
    c.write f buffer = (.ok (), buffer ++ f.encode) := by
  have fits : f.encodedLength ≤ maxFrameLength := Nat.add_le_add_left h 26
  rw [write_eq, encode, if_neg (Nat.not_lt.mpr fits)]

theorem write_of_lt (c : Codec) (buffer : Octets) (h : 1488 < f.payload.length) :
    c.write f buffer = (.error (.frameTooLarge (26 + f.payload.length) 1514), buffer) := by
  have long : maxFrameLength < f.encodedLength := Nat.add_lt_add_left h 26
  rw [write_eq, encode, if_pos long]
  rfl

theorem writes (c : Codec) (f : Frame) (buffer : Octets) : c.Writes f buffer := by
  have write := c.write_eq f buffer
  by_cases hl : f.payload.length ≤ 1488
  case pos =>
    have read : (Codec.mk f.link.ethertype).read? f.encode = some f := by
      apply read?_encode rfl
      change 26 + f.payload.length ≤ 9014
      omega
    constructor
    case write => exact write
    case refused =>
      rw [c.write_of_le buffer hl]
      exact fun _ => ⟨nofun, fun h => absurd hl (Nat.not_le.mpr h.left)⟩
    case untouched =>
      rw [c.write_of_le buffer hl]
      exact nofun
    case appended =>
      exact fun _ => ⟨_, c.write_of_le buffer hl, f.length_encode, Prod.ext read rfl⟩
  case neg =>
    have hl := Nat.lt_of_not_le hl
    constructor
    case write => exact write
    case refused =>
      intro fault
      rw [c.write_of_lt buffer hl, Except.error.injEq, and_iff_right hl]
      exact eq_comm
    case untouched =>
      rw [c.write_of_lt buffer hl]
      exact fun _ _ => rfl
    case appended => exact fun h => absurd hl (Nat.not_lt.mpr h)

-- Whatever comes in is used up without a fault, and whatever goes out comes back.
theorem reads_and_writes {finish : Decoder → Decoder} (atEnd : AtEnd finish) (c : Codec) :
    (∀ buffer, c.Reads finish buffer) ∧ ∀ f buffer, c.Writes f buffer :=
  ⟨reads atEnd c, writes c⟩

end Codec

namespace Decoder

-- Decodes once more, and finds fault with what is left over.
def finish (d : Decoder) : Decoder := fun buffer =>
  match d buffer with
  | (.ok none, [])        => (.ok none, [])
  | (.ok none, o :: rest) => (.error (.transmission "bytes remaining on stream"), o :: rest)
  | (.ok (some f), rest)  => (.ok (some f), rest)
  | (.error fault, rest)  => (.error fault, rest)

theorem atEnd_finish : AtEnd finish where
  frame h := by rw [finish, h]
  fault h := by rw [finish, h]
  done h  := by rw [finish, h]
  leftover {d buffer rest} h ne := by
    obtain ⟨o, rest, rfl⟩ := List.exists_cons_of_ne_nil ne
    rw [finish, h]
    exact ⟨_, rfl⟩

end Decoder

namespace Codec

-- A frame with a payload comes back, and forty octets of noise leave nothing behind.
theorem reads_and_writes_finish :
    let c : Codec := ⟨defaultEthertype⟩
    let f : Frame := ⟨⟨.broadcast, ⟨2, 0, 0, 0, 0, 9⟩, defaultEthertype⟩, 5, .ping, [1, 2]⟩
    let noise : Octets := List.replicate 40 0x55
    AtEnd Decoder.finish ∧ c.decode f.encode = (some f, []) ∧ c.decode noise = (none, []) ∧
    (∀ buffer, c.Reads Decoder.finish buffer) ∧ ∀ f buffer, c.Writes f buffer :=
  ⟨Decoder.atEnd_finish, by rfl, by rfl, reads_and_writes Decoder.atEnd_finish _⟩

end Codec

end RemoteScreen

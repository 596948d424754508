import RemoteScreen.Proofs.Frame.Built
import RemoteScreen.Proofs.Frame.Fields

namespace RemoteScreen

theorem Octets.overwrite_behind (front : Octets) {old back new : Octets} {start : Nat}
    (hs : start = front.length) (h : old.length = new.length) :
    (front ++ (old ++ back)).overwrite start new = front ++ (new ++ back) :=
  hs ▸ Octets.overwrite_append h

-- What a reply is made of: the frame that it answers, and what goes into it.
structure Reply where
  template  : Received
  own       : Identity
  ethertype : UInt16
  kind      : MessageKind
  payload   : Octets

namespace Reply

def link (r : Reply) : LinkHeader :=
  ⟨r.template.source, r.own, r.ethertype⟩

-- The header that holds the place of the final one, with no length and no kind.
def blank (r : Reply) : ProtocolHeader :=
  .signed r.template.nonce 0 MessageKind.noop.number

def frame (r : Reply) : Frame :=
  ⟨r.link, r.template.nonce, r.kind, r.payload⟩

def build (r : Reply) (buffer : Octets) : Except Fault Nat × Octets :=
  buildReply buffer r.template r.own r.ethertype r.kind r.payload

-- Building step by step. Each header is stamped by itself and all the room is cleared before it is
-- known if the payload fits. The payload comes next, then its length, then the kind.
def write (r : Reply) (buffer : Octets) : Except Fault Nat × Octets :=
  if buffer.length < headerLength then (.error (.tooShort headerLength buffer.length), buffer)
  else
    let room := buffer.length - headerLength
    let linked := buffer.overwrite 0 r.link.encode
    let stamped := linked.overwrite linkHeaderLength r.blank.encode
    let cleared := stamped.overwrite headerLength (Octets.zeros room)
    if room < r.payload.length then (.error (.payloadTooLarge r.payload.length room), cleared)
    else
      let filled := cleared.overwrite headerLength r.payload
      let length := Octets.ofWord16 (UInt16.ofNat r.payload.length)
      let sized := filled.overwrite (linkHeaderLength + 8) length
      let typed := sized.overwrite (linkHeaderLength + 10) (Octets.ofWord16 r.kind.number)
      (.ok (headerLength + r.payload.length), typed)

variable {r : Reply} {buffer : Octets}

-- The buffer with both headers in it and no payload.
theorem overwrite_headers (r : Reply) (h : headerLength ≤ buffer.length) :
    ((buffer.overwrite 0 r.link.encode).overwrite linkHeaderLength r.blank.encode).overwrite
        headerLength (Octets.zeros (buffer.length - headerLength))
      = r.link.encode ++ r.blank.encode ++ Octets.zeros (buffer.length - headerLength) := by
  obtain ⟨link, header, body, rfl⟩ := Received.exists_headers h
  have hb : (link.encode ++ (header.encode ++ body)).length - headerLength = body.length := by
    simp [headerLength]
    omega
  have linked : (link.encode ++ (header.encode ++ body)).overwrite 0 r.link.encode
      = r.link.encode ++ (header.encode ++ body) :=
    Octets.overwrite_behind [] rfl rfl
  have stamped : (r.link.encode ++ (header.encode ++ body)).overwrite linkHeaderLength
      r.blank.encode = r.link.encode ++ (r.blank.encode ++ body) :=
    Octets.overwrite_behind r.link.encode rfl rfl
  have cleared : (r.link.encode ++ r.blank.encode ++ (body ++ [])).overwrite headerLength
      (Octets.zeros body.length)
        = r.link.encode ++ r.blank.encode ++ (Octets.zeros body.length ++ []) :=
    Octets.overwrite_behind _ rfl (by simp)
  rw [List.append_nil, List.append_nil] at cleared
  rw [hb, linked, stamped, ← List.append_assoc, cleared]

-- The payload in its room, and then its length and its kind over what held their places.
theorem overwrite_payload (r : Reply) (rest : Octets) :
    (((r.link.encode ++ r.blank.encode ++ (Octets.zeros r.payload.length ++ rest)).overwrite
        headerLength r.payload).overwrite
        (linkHeaderLength + 8) (Octets.ofWord16 (UInt16.ofNat r.payload.length))).overwrite
        (linkHeaderLength + 10) (Octets.ofWord16 r.kind.number)
      = r.frame.encode ++ rest := by
  let signed := r.link.encode ++ (Octets.ofWord32 signature ++ Octets.ofWord32 r.template.nonce)
  let length := Octets.ofWord16 (UInt16.ofNat r.payload.length)
  let noop := Octets.ofWord16 MessageKind.noop.number
  let behind := r.payload ++ rest
  let cleared := Octets.zeros r.payload.length ++ rest
  have filled : (r.link.encode ++ r.blank.encode ++ cleared).overwrite headerLength r.payload
      = r.link.encode ++ r.blank.encode ++ behind :=
    Octets.overwrite_behind _ rfl (by simp)
  have headers : r.link.encode ++ r.blank.encode ++ behind
      = signed ++ (Octets.ofWord16 0 ++ (noop ++ behind)) := by
    simp [signed, noop, blank, ProtocolHeader.encode, ProtocolHeader.signed]
  have sized : (signed ++ (Octets.ofWord16 0 ++ (noop ++ behind))).overwrite (linkHeaderLength + 8)
      length = signed ++ (length ++ (noop ++ behind)) :=
    Octets.overwrite_behind _ rfl rfl
  have typed : (signed ++ length ++ (noop ++ behind)).overwrite (linkHeaderLength + 10)
      (Octets.ofWord16 r.kind.number)
        = signed ++ length ++ (Octets.ofWord16 r.kind.number ++ behind) :=
    Octets.overwrite_behind _ rfl rfl
  rw [filled, headers, sized, ← List.append_assoc signed, typed]
  simp [signed, length, behind, frame, Frame.encode, ProtocolHeader.encode,
    ProtocolHeader.signed]

theorem build_of_short (r : Reply) (h : buffer.length < headerLength) :
    r.build buffer = (.error (.tooShort headerLength buffer.length), buffer) := by
  rw [build, buildReply, Draft.reply, Draft.ofBuffer_of_short (Nat.not_le.mpr h)]

-- Payload that finds no room leaves the headers behind, with nothing but zeros after them.
theorem build_of_tight (r : Reply) (h : headerLength ≤ buffer.length)
    (hp : buffer.length - headerLength < r.payload.length) :
    r.build buffer = (.error (.payloadTooLarge r.payload.length (buffer.length - headerLength)),
      r.link.encode ++ r.blank.encode ++ Octets.zeros (buffer.length - headerLength)) := by
  have ⟨draft, hd, ho⟩ := Draft.reply_eq r.template r.own r.ethertype h
  have hr : draft.room = buffer.length - headerLength := by
    simp [Draft.room_eq ho]
  simp only [build, buildReply, hd, hr, if_pos hp, ho, List.append_assoc]
  rfl

theorem build_of_fits (r : Reply) (h : headerLength + r.payload.length ≤ buffer.length) :
    r.build buffer = (.ok (headerLength + r.payload.length),
      r.frame.encode ++ Octets.zeros (buffer.length - (headerLength + r.payload.length))) :=
  buildReply_eq r.template r.own r.ethertype r.kind h

-- A buffer is too short for the headers, or has too little room behind them, or holds the reply.
theorem build_cases (r : Reply) (buffer : Octets) :
    buffer.length < headerLength ∨
    (headerLength ≤ buffer.length ∧ buffer.length - headerLength < r.payload.length) ∨
    headerLength + r.payload.length ≤ buffer.length := by
  omega

theorem write_eq (r : Reply) (buffer : Octets) : r.write buffer = r.build buffer := by
  rw [write]
  obtain short | ⟨long, tight⟩ | fits := r.build_cases buffer
  case inl => rw [if_pos short, r.build_of_short short]
  case inr.inl =>
    rw [if_neg (Nat.not_lt.mpr long), r.build_of_tight long tight]
    simp only [if_pos tight, r.overwrite_headers long]
  case inr.inr =>
    have long : headerLength ≤ buffer.length := Nat.le_of_add_right_le fits
    have room : ¬ buffer.length - headerLength < r.payload.length := by
      omega
    have split : Octets.zeros (buffer.length - headerLength) = Octets.zeros r.payload.length ++
        Octets.zeros (buffer.length - (headerLength + r.payload.length)) := by
      rw [← Octets.zeros_add]
      congr 1
      omega
    rw [if_neg (Nat.not_lt.mpr long), r.build_of_fits fits]
    simp only [if_neg room]
    rw [r.overwrite_headers long, split, r.overwrite_payload]

-- What stands in a buffer that a reply fills.
structure Fills (r : Reply) (after : Octets) : Prop where
  destination : after.slice 0 6 = r.template.source.octets
  source      : after.slice 6 6 = r.own.octets
  ethertype   : (after.slice 12 2).number = r.ethertype.toNat
  signature   : (after.slice 14 4).number = 0x7b6e05b0
  nonce       : (after.slice 18 4).number = r.template.nonce.toNat
  length      : (after.slice 22 2).number = r.payload.length
  kind        : (after.slice 24 2).number = r.kind.number.toNat
  payload     : after.slice 26 r.payload.length = r.payload
  filling     : after.drop (26 + r.payload.length)
    = Octets.zeros (after.length - (26 + r.payload.length))

-- What the receiver of a reply makes of it.
structure Returns (r : Reply) (received : Received) : Prop where
  destination : received.link.destination = r.template.source
  source      : received.source = r.own
  ethertype   : received.link.ethertype = r.ethertype
  nonce       : received.nonce = r.template.nonce
  kind        : received.kind = .ok r.kind
  payload     : received.payload = r.payload
  length      : received.length = 26 + r.payload.length

theorem fills (h : r.payload.length < UInt16.size) (count : Nat) :
    r.Fills (r.frame.encode ++ Octets.zeros count) := by
  have ho : r.frame.encode ++ Octets.zeros count = r.link.encode ++
      ((ProtocolHeader.signed r.template.nonce (UInt16.ofNat r.payload.length)
        r.kind.number).encode ++ (r.payload ++ Octets.zeros count)) := by
    simp [frame, Frame.encode]
  have hl : r.frame.encode.length = 26 + r.payload.length := Frame.length_encode _
  constructor
  case destination => rw [ho, Octets.slice_destination]; rfl
  case source      => rw [ho, Octets.slice_source]; rfl
  case ethertype   => rw [ho, Octets.slice_ethertype, Octets.number_ofWord16]; rfl
  case signature   => rw [ho, Octets.slice_signature, Octets.number_ofWord32]; rfl
  case nonce       => rw [ho, Octets.slice_nonce, Octets.number_ofWord32]; rfl
  case length =>
    rw [ho, Octets.slice_payloadLength, Octets.number_ofWord16]
    exact UInt16.toNat_ofNat_of_lt' h
  case kind        => rw [ho, Octets.slice_kind, Octets.number_ofWord16]; rfl
  case payload     => rw [ho, Octets.slice, Octets.drop_headers, List.take_left]
  case filling =>
    rw [← hl, List.drop_left, List.length_append, Nat.add_sub_cancel_left, Octets.length_zeros]

theorem returns {limit : Nat} (h : r.payload.length < UInt16.size) (hl : r.payload.length ≤ limit) :
    ∃ received, Received.parseUpTo limit r.frame.encode = .ok received ∧ r.Returns received := by
  have hm : min (UInt16.ofNat r.payload.length).toNat limit = r.payload.length := by
    rw [UInt16.toNat_ofNat_of_lt' h, Nat.min_eq_left hl]
  refine ⟨_, Received.parseUpTo_eq_ok rfl, ?_⟩
  constructor
  case payload => exact (congrArg r.payload.take hm).trans List.take_length
  case length  => exact Frame.length_encode _
  case kind    => simp [Received.kind, frame, ProtocolHeader.signed]
  all_goals rfl

-- What building a reply in a buffer comes to.
structure Exact (r : Reply) (buffer : Octets) : Prop where
  steps : r.build buffer = r.write buffer
  short : buffer.length < 26 → r.build buffer = (.error (.tooShort 26 buffer.length), buffer)
  tight : 26 ≤ buffer.length → buffer.length - 26 < r.payload.length →
    r.build buffer = (.error (.payloadTooLarge r.payload.length (buffer.length - 26)),
      r.link.encode ++ r.blank.encode ++ Octets.zeros (buffer.length - 26))
  fits  : 26 ≤ buffer.length → r.payload.length ≤ buffer.length - 26 → ∃ after,
    r.build buffer = (.ok (26 + r.payload.length), after) ∧
    after.length = buffer.length ∧ r.Fills after ∧
    ∀ limit, r.payload.length ≤ limit → ∃ received,
      Received.parseUpTo limit (after.take (26 + r.payload.length)) = .ok received ∧
      r.Returns received
  fresh : 26 ≤ buffer.length → ∀ other : Octets, other.length = buffer.length →
    r.build other = r.build buffer

-- Nothing but its length counts of what a buffer held before.
theorem build_fresh (r : Reply) {other : Octets} (h : 26 ≤ buffer.length)
    (hl : other.length = buffer.length) : r.build other = r.build buffer := by
  obtain short | ⟨long, tight⟩ | fits := r.build_cases buffer
  case inl => exact absurd h (Nat.not_le.mpr short)
  case inr.inl =>
    rw [r.build_of_tight long tight, r.build_of_tight (hl ▸ long) (hl ▸ tight), hl]
  case inr.inr => rw [r.build_of_fits fits, r.build_of_fits (hl ▸ fits), hl]

-- A reply is built in every buffer that has room for it, and refused by every other.
theorem built_exactly (r : Reply) (h : buffer.length ≤ maxJumboLength) : r.Exact buffer := by
  constructor
  case steps => exact (r.write_eq buffer).symm
  case short => exact r.build_of_short
  case tight => exact r.build_of_tight
  case fresh => exact fun long _ hl => r.build_fresh long hl
  case fits =>
    intro long fits
    have hf : headerLength + r.payload.length ≤ buffer.length := Nat.add_le_of_le_sub' long fits
    have hs : r.payload.length < UInt16.size := by
      calc r.payload.length
        _ ≤ buffer.length - 26 := fits
        _ ≤ maxJumboLength     := Nat.le_trans (Nat.sub_le ..) h
        _ < UInt16.size        := by decide
    have hl : r.frame.encode.length = 26 + r.payload.length := Frame.length_encode _
    refine ⟨_, r.build_of_fits hf, ?_, r.fills hs _, ?_⟩
    · rw [List.length_append, hl, Octets.length_zeros]
      exact Nat.add_sub_cancel' hf
    · intro limit hp
      rw [← hl, List.take_left]
      exact r.returns hs hp

-- An answer to a ping, in a buffer with something stale in every octet.
theorem built_exactly_stale :
    let station : Identity := ⟨2, 0, 0, 0, 0, 16⟩
    let ping : Frame := ⟨⟨.broadcast, station, defaultEthertype⟩, 0x11223344, .ping, [7, 8, 9]⟩
    let buffer : Octets := List.replicate 31 0xee
    ∃ template, Received.parse ping.encode = .ok template ∧
      let r : Reply := ⟨template, ⟨2, 0, 0, 0, 0, 1⟩, defaultEthertype, .pong, [7, 8, 9]⟩
      buffer.length ≤ maxJumboLength ∧
      r.build buffer = (.ok 29, [2, 0, 0, 0, 0, 16, 2, 0, 0, 0, 0, 1, 0x80, 0xab,
        0x7b, 0x6e, 0x05, 0xb0, 0x11, 0x22, 0x33, 0x44, 0, 3, 0, 2, 7, 8, 9, 0, 0]) ∧
      r.Exact buffer :=
  ⟨_, rfl, by decide, by rfl, built_exactly _ (by decide)⟩

end Reply

end RemoteScreen

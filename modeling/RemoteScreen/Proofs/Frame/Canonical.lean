import RemoteScreen.Proofs.Frame.Fields
import RemoteScreen.Proofs.Frame.RoundTrip

namespace RemoteScreen

-- Outside a stretch that is written anew, octets stay as they were.
theorem Octets.getElem?_rewritten {front old new back rest : Octets} {i : Nat}
    (hl : old.length = new.length) (hi : i < (front ++ (new ++ back)).length)
    (ho : i < front.length ∨ front.length + new.length ≤ i) :
    (front ++ (new ++ back))[i]? = (front ++ (old ++ (back ++ rest)))[i]? := by
  cases ho
  case inl h => simp [List.getElem?_append_left h]
  case inr h =>
    have hb : i - front.length - new.length < back.length := by
      simp only [List.length_append] at hi
      omega
    have hn : new.length ≤ i - front.length := Nat.le_sub_of_add_le' h
    have hf : front.length ≤ i := Nat.le_of_add_right_le h
    simp [List.getElem?_append_right hf, List.getElem?_append_right hn,
      List.getElem?_append_right (hl ▸ hn), List.getElem?_append_left hb, hl]

namespace Frame

variable {f : Frame} {raw body : Octets} {link : LinkHeader} {header : ProtocolHeader}
  {kind : MessageKind} {fault : Fault}

-- What has to stand in a run of octets for it to be a frame.
structure Valid (raw : Octets) : Prop where
  long   : 26 ≤ raw.length
  signed : raw.slice 14 4 = [0x7b, 0x6e, 0x05, 0xb0]
  known  : (raw.slice 24 2).number ≤ 7

-- Why a run of octets is no frame. Of several reasons the first one counts.
inductive Refused (raw : Octets) : Fault → Prop
  | short :
    raw.length < 26 → Refused raw (.tooShort 26 raw.length)
  | foreign :
    26 ≤ raw.length → raw.slice 14 4 ≠ [0x7b, 0x6e, 0x05, 0xb0] →
    Refused raw (.foreignSignature (UInt32.ofNat (raw.slice 14 4).number))
  | unknown :
    26 ≤ raw.length → raw.slice 14 4 = [0x7b, 0x6e, 0x05, 0xb0] → 7 < (raw.slice 24 2).number →
    Refused raw (.unknownKind (raw.slice 24 2).number)

-- The frame says what the octets say, and has one encoding of its own: the octets up to the end of
-- its payload, but for the length, which is now that of the payload.
structure Distils (f : Frame) (raw : Octets) : Prop where
  payload : f.payload.length = min (raw.slice 22 2).number (min (raw.length - 26) 8988)
  length  : f.encode.length = 26 + f.payload.length
  agrees  : ∀ i < 26 + f.payload.length, i ≠ 22 → i ≠ 23 → f.encode[i]? = raw[i]?
  count   : (f.encode.slice 22 2).number = f.payload.length
  decodes : ofOctets f.encode = .ok f
  stable  : (ofOctets f.encode).map encode = .ok f.encode

theorem signed_iff : Octets.slice (link.encode ++ (header.encode ++ body)) 14 4
      = [0x7b, 0x6e, 0x05, 0xb0] ↔ header.signature = signature := by
  rw [Octets.slice_signature]
  change Octets.ofWord32 _ = Octets.ofWord32 signature ↔ _
  exact Octets.ofWord32_inj

theorem Valid.not_refused (h : Valid raw) : ¬ Refused raw fault := by
  intro r
  cases r
  case short hl     => exact Nat.not_le.mpr hl h.long
  case foreign hs   => exact hs h.signed
  case unknown _ hk => exact Nat.not_le.mpr hk h.known

theorem Refused.unique {fault' : Fault} (h : Refused raw fault) (h' : Refused raw fault') :
    fault = fault' := by
  cases h <;> cases h'
  case short.short | foreign.foreign | unknown.unknown => rfl
  case foreign.unknown _ hs _ hs' _                    => exact absurd hs' hs
  case unknown.foreign hs _ _ hs'                      => exact absurd hs hs'
  all_goals omega

-- A run of octets is either a frame or refused, and reading it says which.
theorem ofOctets_cases (raw : Octets) :
    (∃ fault, ofOctets raw = .error fault ∧ Refused raw fault) ∨
    (Valid raw ∧ ∃ (link : LinkHeader) (header : ProtocolHeader) (kind : MessageKind)
      (body : Octets), raw = link.encode ++ (header.encode ++ body) ∧
        header.signature = signature ∧ header.kind = kind.number ∧
        ofOctets raw = .ok ⟨link, header.nonce, kind,
          body.take (min header.payloadLength.toNat 8988)⟩) := by
  by_cases hl : raw.length < 26
  case pos =>
    refine .inl ⟨_, ?_, .short hl⟩
    rw [ofOctets, Received.parseUpTo_of_short hl]
    rfl
  case neg =>
    have long := Nat.le_of_not_lt hl
    obtain ⟨link, header, body, rfl⟩ := Received.exists_headers long
    by_cases hs : header.signature = signature
    case neg =>
      have refused := Refused.foreign long (mt signed_iff.mp hs)
      rw [Octets.slice_signature, Octets.number_ofWord32, UInt32.ofNat_toNat] at refused
      refine .inl ⟨_, ?_, refused⟩
      rw [ofOctets, Received.parseUpTo_of_foreign hs]
    case pos =>
      have hk : (Octets.slice (link.encode ++ (header.encode ++ body)) 24 2).number
          = header.kind.toNat := by
        rw [Octets.slice_kind, Octets.number_ofWord16]
      cases hn : MessageKind.ofNumber? header.kind
      case none =>
        have unknown := MessageKind.ofNumber?_eq_none_iff.mp hn
        have refused := Refused.unknown long (signed_iff.mpr hs) (hk ▸ unknown)
        rw [hk] at refused
        refine .inl ⟨_, ?_, refused⟩
        rw [ofOctets, Received.parseUpTo_eq_ok hs]
        simp only [Received.kind, MessageKind.ofNumber, hn]
      case some kind =>
        have known : header.kind.toNat ≤ 7 := by
          apply Nat.le_of_not_lt
          intro h
          rw [MessageKind.ofNumber?_eq_none_iff.mpr h] at hn
          contradiction
        refine .inr ⟨⟨long, signed_iff.mpr hs, hk ▸ known⟩, link, header, kind, body, rfl, hs,
          (MessageKind.number_of_ofNumber? hn).symm, ?_⟩
        rw [ofOctets, Received.parseUpTo_eq_ok hs]
        simp only [Received.kind, MessageKind.ofNumber, hn]
        rfl

theorem distils (hs : header.signature = signature) (hk : header.kind = kind.number) :
    Distils ⟨link, header.nonce, kind, body.take (min header.payloadLength.toNat 8988)⟩
      (link.encode ++ (header.encode ++ body)) := by
  let count := min header.payloadLength.toNat 8988
  let f : Frame := ⟨link, header.nonce, kind, body.take count⟩
  let front := link.encode ++ (Octets.ofWord32 signature ++ Octets.ofWord32 header.nonce)
  let back := Octets.ofWord16 kind.number ++ f.payload
  have new : f.encode = front ++ (Octets.ofWord16 (UInt16.ofNat f.payload.length) ++ back) := by
    simp [f, front, back, encode, ProtocolHeader.encode, ProtocolHeader.signed]
  have old : link.encode ++ (header.encode ++ body)
      = front ++ (Octets.ofWord16 header.payloadLength ++ (back ++ body.drop count)) := by
    simp [f, front, back, ProtocolHeader.encode, hs, hk]
  have hp : f.payload.length = min count body.length := List.length_take
  have limit : f.payload.length ≤ 8988 := by
    omega
  have decodes : ofOctets f.encode = .ok f := ofOctets_encode limit
  constructor
  case payload =>
    have hb : (link.encode ++ (header.encode ++ body)).length - 26 = body.length := by
      simp only [List.length_append, LinkHeader.length_encode, ProtocolHeader.length_encode,
        linkHeaderLength, protocolHeaderLength]
      omega
    rw [hb, Octets.slice_payloadLength, Octets.number_ofWord16, hp]
    omega
  case length => exact f.length_encode
  case agrees =>
    intro i hi h₂₂ h₂₃
    have hl : i < (front ++ (Octets.ofWord16 (UInt16.ofNat f.payload.length) ++ back)).length := by
      rw [← new, f.length_encode]
      exact hi
    have ho : i < 22 ∨ 24 ≤ i := by
      omega
    rw [new, old]
    exact Octets.getElem?_rewritten rfl hl ho
  case count =>
    have hw : (f.encode.slice 22 2).number = (UInt16.ofNat f.payload.length).toNat := by
      rw [encode, Octets.slice_payloadLength, Octets.number_ofWord16]
      rfl
    rw [hw, UInt16.toNat_ofNat_of_lt' (Nat.lt_of_le_of_lt limit (by decide))]
  case decodes => exact decodes
  case stable  => rw [decodes]; rfl

-- Reading refuses all but frames, and a frame that is read has been brought into its one form.
theorem decoding_canonical (raw : Octets) :
    (∀ fault, ofOctets raw = .error fault ↔ Refused raw fault) ∧
      ((∃ f, ofOctets raw = .ok f) ↔ Valid raw) ∧
      ∀ f, ofOctets raw = .ok f → f.Distils raw := by
  obtain ⟨fault, read, refused⟩ | ⟨valid, link, header, kind, body, rfl, hs, hk, read⟩ :=
    ofOctets_cases raw <;> rw [read]
  case inl =>
    refine ⟨fun fault' => ⟨fun h => ?_, fun r => ?_⟩, ⟨nofun, fun v => ?_⟩, nofun⟩
    · cases h
      exact refused
    · rw [refused.unique r]
    · exact absurd refused v.not_refused
  case inr =>
    refine ⟨fun fault => ⟨nofun, fun r => absurd r valid.not_refused⟩,
      ⟨fun _ => valid, fun _ => ⟨_, rfl⟩⟩, fun f h => ?_⟩
    cases h
    exact distils hs hk

end Frame

end RemoteScreen

import RemoteScreen.Frame.Received

namespace RemoteScreen

namespace Octets

theorem ofWord16_word16 (high low : UInt8) : ofWord16 (word16 high low) = [high, low] := by
  have hh := high.toNat_lt
  have hl := low.toNat_lt
  simp only [ofWord16, word16, List.cons.injEq, and_true, ← UInt8.toNat_inj, UInt8.toNat_ofNat',
    UInt16.toNat_ofNat']
  omega

theorem ofWord32_word32 (a b c d : UInt8) : ofWord32 (word32 a b c d) = [a, b, c, d] := by
  have ha := a.toNat_lt
  have hb := b.toNat_lt
  have hc := c.toNat_lt
  have hd := d.toNat_lt
  simp only [ofWord32, word32, List.cons.injEq, and_true, ← UInt8.toNat_inj, UInt8.toNat_ofNat',
    UInt32.toNat_ofNat']
  omega

-- What is read off the front stood there, and whatever is long enough can be read.

theorem eq_of_takeWord16? {octets rest : Octets} {word : UInt16}
    (h : takeWord16? octets = some (word, rest)) : octets = ofWord16 word ++ rest := by
  unfold takeWord16? at h
  split at h
  case h_1 =>
    cases h
    simp [ofWord16_word16]
  case h_2 => contradiction

theorem eq_of_takeWord32? {octets rest : Octets} {word : UInt32}
    (h : takeWord32? octets = some (word, rest)) : octets = ofWord32 word ++ rest := by
  unfold takeWord32? at h
  split at h
  case h_1 =>
    cases h
    simp [ofWord32_word32]
  case h_2 => contradiction

theorem exists_word16 (octets : Octets) (h : 2 ≤ octets.length) :
    ∃ word rest, octets = ofWord16 word ++ rest := by
  match octets, h with
  | high :: low :: rest, _ => exact ⟨word16 high low, rest, by simp [ofWord16_word16]⟩

theorem exists_word32 (octets : Octets) (h : 4 ≤ octets.length) :
    ∃ word rest, octets = ofWord32 word ++ rest := by
  match octets, h with
  | a :: b :: c :: d :: rest, _ => exact ⟨word32 a b c d, rest, by simp [ofWord32_word32]⟩

end Octets

theorem MessageKind.ofNumber?_eq_none_iff {number : UInt16} :
    ofNumber? number = none ↔ 7 < number.toNat := by
  rw [ofNumber?]
  split
  case h_9 => exact ⟨fun _ => by grind, fun _ => rfl⟩
  all_goals simp [*]

theorem MessageKind.number_of_ofNumber? {number : UInt16} {kind : MessageKind}
    (h : ofNumber? number = some kind) : kind.number = number := by
  rw [ofNumber?] at h
  split at h
  case h_9 => contradiction
  all_goals
    cases h
    exact UInt16.toNat_inj.mp (Eq.symm ‹_›)

theorem Identity.eq_of_take? {octets rest : Octets} {identity : Identity}
    (h : take? octets = some (identity, rest)) : octets = identity.octets ++ rest := by
  unfold take? at h
  split at h
  case h_1 => cases h; rfl
  case h_2 => contradiction

theorem Identity.exists_octets (octets : Octets) (h : 6 ≤ octets.length) :
    ∃ (identity : Identity) (rest : Octets), octets = identity.octets ++ rest := by
  match octets, h with
  | a :: b :: c :: d :: e :: f :: rest, _ => exact ⟨⟨a, b, c, d, e, f⟩, rest, rfl⟩

theorem LinkHeader.eq_of_take? {octets rest : Octets} {link : LinkHeader}
    (h : take? octets = some (link, rest)) : octets = link.encode ++ rest := by
  simp only [take?, Option.bind_eq_bind, Option.bind_eq_some_iff, Prod.exists, Option.pure_def,
    Option.some.injEq, Prod.mk.injEq] at h
  obtain ⟨destination, _, hd, source, _, hs, ethertype, _, ht, hl, hr⟩ := h
  subst hl hr
  rw [Identity.eq_of_take? hd, Identity.eq_of_take? hs, Octets.eq_of_takeWord16? ht]
  simp [encode]

theorem LinkHeader.exists_encode (octets : Octets) (h : linkHeaderLength ≤ octets.length) :
    ∃ (link : LinkHeader) (rest : Octets), octets = link.encode ++ rest := by
  rw [linkHeaderLength] at h
  have ⟨destination, afterDestination, hd⟩ := Identity.exists_octets octets (by omega)
  subst hd
  simp only [List.length_append, Identity.length_octets] at h
  have ⟨source, afterSource, hs⟩ := Identity.exists_octets afterDestination (by omega)
  subst hs
  simp only [List.length_append, Identity.length_octets] at h
  have ⟨ethertype, rest, ht⟩ := Octets.exists_word16 afterSource (by omega)
  exact ⟨⟨destination, source, ethertype⟩, rest, by simp [ht, encode]⟩

theorem ProtocolHeader.eq_of_take? {octets rest : Octets} {header : ProtocolHeader}
    (h : take? octets = some (header, rest)) : octets = header.encode ++ rest := by
  simp only [take?, Option.bind_eq_bind, Option.bind_eq_some_iff, Prod.exists, Option.pure_def,
    Option.some.injEq, Prod.mk.injEq] at h
  obtain ⟨signature, _, hs, nonce, _, hn, length, _, hl, kind, _, hk, hh, hr⟩ := h
  subst hh hr
  rw [Octets.eq_of_takeWord32? hs, Octets.eq_of_takeWord32? hn, Octets.eq_of_takeWord16? hl,
    Octets.eq_of_takeWord16? hk]
  simp [encode]

theorem ProtocolHeader.exists_encode (octets : Octets)
    (h : protocolHeaderLength ≤ octets.length) :
    ∃ (header : ProtocolHeader) (rest : Octets), octets = header.encode ++ rest := by
  rw [protocolHeaderLength] at h
  have ⟨signature, afterSignature, hs⟩ := Octets.exists_word32 octets (by omega)
  subst hs
  simp only [List.length_append, Octets.length_ofWord32] at h
  have ⟨nonce, afterNonce, hn⟩ := Octets.exists_word32 afterSignature (by omega)
  subst hn
  simp only [List.length_append, Octets.length_ofWord32] at h
  have ⟨length, afterLength, hl⟩ := Octets.exists_word16 afterNonce (by omega)
  subst hl
  simp only [List.length_append, Octets.length_ofWord16] at h
  have ⟨kind, rest, hk⟩ := Octets.exists_word16 afterLength (by omega)
  exact ⟨⟨signature, nonce, length, kind⟩, rest, by simp [hk, encode]⟩

namespace Received

-- Whatever is as long as two headers begins with two headers.
theorem exists_headers {raw : Octets} (h : headerLength ≤ raw.length) :
    ∃ (link : LinkHeader) (header : ProtocolHeader) (body : Octets),
      raw = link.encode ++ (header.encode ++ body) := by
  rw [headerLength] at h
  have ⟨link, afterLink, hl⟩ := LinkHeader.exists_encode raw (by omega)
  subst hl
  simp only [List.length_append, LinkHeader.length_encode] at h
  have ⟨header, body, hb⟩ := ProtocolHeader.exists_encode afterLink (by omega)
  exact ⟨link, header, body, by rw [hb]⟩

variable {limit : Nat} {raw body : Octets} {link : LinkHeader} {header : ProtocolHeader}

theorem parseUpTo_eq_ok (h : header.signature = signature) :
    parseUpTo limit (link.encode ++ (header.encode ++ body)) = .ok
      ⟨link, header, body.take (min header.payloadLength.toNat limit),
        (link.encode ++ (header.encode ++ body)).length⟩ := by
  simp [parseUpTo, ProtocolHeader.validate, h]

theorem parseUpTo_of_foreign (h : header.signature ≠ signature) :
    parseUpTo limit (link.encode ++ (header.encode ++ body))
      = .error (.foreignSignature header.signature) := by
  simp [parseUpTo, ProtocolHeader.validate, h]

theorem parseUpTo_of_short (h : raw.length < headerLength) :
    parseUpTo limit raw = .error (.tooShort headerLength raw.length) := by
  rw [parseUpTo]
  split
  case h_1 => rfl
  case h_2 hl =>
    split
    case h_1 => rfl
    case h_2 hp =>
      rw [LinkHeader.eq_of_take? hl, ProtocolHeader.eq_of_take? hp] at h
      simp only [List.length_append, LinkHeader.length_encode, ProtocolHeader.length_encode,
        headerLength] at h
      omega

-- Whatever is read stood there, but for payload that is cut off.
theorem exists_of_parse {frame : Received} (h : parse raw = .ok frame) :
    ∃ (link : LinkHeader) (header : ProtocolHeader) (body : Octets),
      raw = link.encode ++ (header.encode ++ body) ∧ header.signature = signature ∧
      frame = ⟨link, header, body.take (min header.payloadLength.toNat maxPayloadLength),
        raw.length⟩ := by
  rw [parse] at h
  by_cases hl : raw.length < headerLength
  case pos =>
    rw [parseUpTo_of_short hl] at h
    contradiction
  case neg =>
    have ⟨link, header, body, hr⟩ := exists_headers (Nat.le_of_not_lt hl)
    subst hr
    by_cases hs : header.signature = signature
    case pos =>
      rw [parseUpTo_eq_ok hs] at h
      exact ⟨link, header, body, rfl, hs, (Except.ok.inj h).symm⟩
    case neg =>
      rw [parseUpTo_of_foreign hs] at h
      contradiction

theorem length_payload_le {frame : Received} (h : parse raw = .ok frame) :
    frame.payload.length ≤ maxPayloadLength := by
  have ⟨link, header, body, _, _, hf⟩ := exists_of_parse h
  simp only [hf, List.length_take]
  omega

end Received

end RemoteScreen
